import Mathlib.Data.List.GetD
import PaxAdb.Cells
import PaxAdb.InputThread

/-!
# Bulk transfers

`usb_write` cuts a buffer into transfers of at most 4096 bytes, and adds an empty one when the
device needs it. `usb_bulk_write` submits a transfer and waits until the thread that reads has
reaped it. One variable holds what `pthread_cond_timedwait` has returned and the length that was
transferred, so a transfer that has failed may look like one of 0 or of `ETIMEDOUT` bytes.

`usb_read` goes on after a failed transfer if `errno` is `ETIMEDOUT`, whoever has set it.
-/

namespace PaxAdb.Usb

open Cells (Memory storeAt)
open List Option

def ETIMEDOUT : ℤ := 110
def ENODEV : ℤ := 19
def EINTR : ℤ := 4

section Handle

/-- What the kernel leaves in a `usbdevfs_urb`. -/
structure Urb where
  status : ℤ
  actualLength : ℤ
  deriving DecidableEq, Repr

structure Handle where
  desc : ℤ
  writeable : Bool
  dead : Bool
  urbOut : Urb
  urbOutBusy : Bool
  deriving DecidableEq, Repr

def Handle.usbKick (h : Handle) : Handle :=
  if h.dead then h
  else if h.writeable then
    { h with dead := true, urbOut := { h.urbOut with status := -ENODEV }, urbOutBusy := false }
  else { h with dead := true }

def Handle.maybeKicked (h : Handle) (kicked : Bool) : Handle := if kicked then h.usbKick else h

inductive Submit where
  | ok
  | failed (errno : ℤ)
  deriving DecidableEq, Repr

/-- The loop around the `ioctl`: whether the transfer is submitted, and `errno` after it. There is
no result while it is interrupted. -/
def submitUrb : List Submit → ℤ → Option (Bool × ℤ)
  | [], _ => none
  | .ok :: _, errno => some (true, errno)
  | .failed e :: results, _ => if e = EINTR then submitUrb results e else some (false, e)

end Handle

section Write

inductive Event where
  | reaped (status actualLength : ℤ)
  | kicked
  deriving DecidableEq, Repr

/-- One `pthread_cond_timedwait`: what happens meanwhile, and whether it returns `ETIMEDOUT`. -/
structure Wait where
  events : List Event
  timedOut : Bool
  deriving DecidableEq, Repr

/-- A transfer on its way: the handle, and how the transfer has finished. -/
structure Waiting where
  handle : Handle
  finished : Option (ℤ × ℤ)
  deriving DecidableEq, Repr

/-- The kernel finishes a transfer once. The thread that reads does not tell the writer any more
when the handle is dead. -/
def Waiting.after (w : Waiting) : Event → Waiting
  | .reaped status actualLength =>
      if w.finished.isSome then w
      else
        ⟨{ w.handle with
            urbOut := ⟨status, actualLength⟩
            urbOutBusy := w.handle.urbOutBusy && w.handle.dead }, some (status, actualLength)⟩
  | .kicked => { w with handle := w.handle.usbKick }

def Wait.res (x : Wait) : ℤ := if x.timedOut then ETIMEDOUT else 0

def waitLoop : List Wait → Waiting → Option (ℤ × Waiting)
  | [], _ => none
  | x :: waits, w =>
      let w := x.events.foldl Waiting.after w
      if w.handle.dead then some (x.res, w)
      else if w.handle.urbOutBusy then waitLoop waits w
      else some (if w.handle.urbOut.status = 0 then w.handle.urbOut.actualLength else x.res, w)

structure BulkWrite where
  /-- the handle is kicked before the call -/
  kicked : Bool
  submits : List Submit
  waits : List Wait
  deriving DecidableEq, Repr

structure Transfer where
  data : List Byte
  finished : Option (ℤ × ℤ)
  deriving DecidableEq, Repr

/-- The result of `usb_bulk_write`, the handle and the transfers after it; none while it waits. -/
def usbBulkWrite (h : Handle) (data : List Byte) (b : BulkWrite) :
    Option (ℤ × Handle × List Transfer) :=
  let h := { h.maybeKicked b.kicked with urbOut := ⟨-1, 0⟩ }
  if h.dead then some (-1, h, [])
  else
    match submitUrb b.submits 0 with
    | none => none
    | some (false, _) => some (-1, h, [])
    | some (true, _) =>
        (waitLoop b.waits ⟨{ h with urbOutBusy := true }, none⟩).map fun r =>
          (r.1, r.2.handle, [⟨data, r.2.finished⟩])

def usbWriteLoop (needZero : Bool) :
    List BulkWrite → List Byte → Handle → Option (ℤ × List Transfer)
  | [], [], _ => if needZero then none else some (0, [])
  | b :: _, [], h =>
      if needZero then (usbBulkWrite h [] b).map fun r => (r.1, r.2.2) else some (0, [])
  | [], _ :: _, _ => none
  | b :: bulks, c :: data, h =>
      let xfer := (c :: data).take 4096
      (usbBulkWrite h xfer b).bind fun r =>
        if r.1 ≠ xfer.length then some (-1, r.2.2)
        else (usbWriteLoop needZero bulks ((c :: data).drop 4096) r.2.1).map fun s =>
          (s.1, r.2.2 ++ s.2)

def needZero (zeroMask len : ℕ) : Bool := zeroMask ≠ 0 ∧ len &&& zeroMask = 0

def usbWrite (zeroMask : ℕ) (data : List Byte) (bulks : List BulkWrite) (h : Handle) :
    Option (ℤ × List Transfer) :=
  usbWriteLoop (needZero zeroMask data.length) bulks data h

end Write

section Complete

variable {h h' : Handle} {data : List Byte} {b : BulkWrite} {n : ℤ} {ts : List Transfer}
  {w w' : Waiting}

def Transfer.Complete (t : Transfer) : Prop := t.finished = some (0, (t.data.length : ℤ))

instance : DecidablePred Transfer.Complete := fun _ => inferInstanceAs (Decidable (_ = _))

/-- The transfers are the whole buffer, and the empty one behind a full last packet. -/
structure Delivered (zeroMask : ℕ) (data : List Byte) (ts : List Transfer) : Prop where
  buffer : ts.flatMap Transfer.data = data
  size : ∀ t ∈ ts, t.data.length ≤ 4096
  complete : ∀ t ∈ ts, t.Complete
  terminated : zeroMask ≠ 0 → zeroMask + 1 ∣ data.length → ∃ t, ts.getLast? = some t ∧ t.data = []

/-- A status of 0 was left by the kernel. -/
def Waiting.Honest (w : Waiting) : Prop :=
  w.handle.urbOut.status = 0 → w.finished = some (0, w.handle.urbOut.actualLength)

theorem Waiting.Honest.after (hw : w.Honest) (e : Event) : (w.after e).Honest := by
  cases e with
  | reaped status actualLength =>
    rw [Waiting.after]
    split
    next => exact hw
    next =>
      intro hstatus
      have hzero : status = 0 := hstatus
      rw [hzero]
  | kicked =>
    rw [Waiting.after, Handle.usbKick]
    split
    next => exact hw
    next =>
      split
      next =>
        intro hstatus
        have hnodev : -ENODEV = 0 := hstatus
        exact absurd hnodev (by decide)
      next => exact hw

theorem Waiting.Honest.events (hw : w.Honest) (events : List Event) :
    (events.foldl Waiting.after w).Honest := by
  induction events generalizing w with
  | nil => exact hw
  | cons e events ih => exact ih (hw.after e)

theorem honest_start (h : Handle) :
    (⟨{ h with urbOut := ⟨-1, 0⟩, urbOutBusy := true }, none⟩ : Waiting).Honest := by
  intro hstatus
  have hneg : (-1 : ℤ) = 0 := hstatus
  exact absurd hneg (by decide)

/-- The loop returns what the last wait has returned, or the length of a transfer without error. -/
theorem waitLoop_spec {waits : List Wait} (hw : w.Honest) (h : waitLoop waits w = some (n, w')) :
    n = 0 ∨ n = ETIMEDOUT ∨ w'.finished = some (0, n) := by
  induction waits generalizing w with
  | nil => cases h
  | cons x waits ih =>
    have hres : x.res = 0 ∨ x.res = ETIMEDOUT := by
      rw [Wait.res]
      split
      next => exact .inr rfl
      next => exact .inl rfl
    have hw' := hw.events x.events
    rw [waitLoop] at h
    split at h
    next =>
      cases h
      exact hres.imp_right .inl
    next =>
      split at h
      next => exact ih hw' h
      next =>
        split at h
        next hstatus =>
          cases h
          exact .inr (.inr (hw' hstatus))
        next =>
          cases h
          exact hres.imp_right .inl

/-- A call that returns the length it was given has made one transfer, and unless this length is
0 or 110 the transfer is complete. -/
theorem usbBulkWrite_spec (hcall : usbBulkWrite h data b = some ((data.length : ℤ), h', ts)) :
    ∃ t, ts = [t] ∧ t.data = data ∧
      (t.Complete ∨ data.length = 0 ∨ (data.length : ℤ) = ETIMEDOUT) := by
  rw [usbBulkWrite] at hcall
  split at hcall
  next =>
    have hneg : (-1 : ℤ) = data.length := congrArg Prod.fst (some.inj hcall)
    omega
  next =>
    split at hcall
    next => cases hcall
    next =>
      have hneg : (-1 : ℤ) = data.length := congrArg Prod.fst (some.inj hcall)
      omega
    next =>
      obtain ⟨⟨m, w⟩, hloop, heq⟩ := map_eq_some_iff.mp hcall
      cases heq
      refine ⟨_, rfl, rfl, ?_⟩
      rcases waitLoop_spec (honest_start _) hloop with hzero | htime | hdone
      · exact .inr (.inl (Int.natCast_eq_zero.mp hzero))
      · exact .inr (.inr htime)
      · exact .inl hdone

/-- What a turn of the loop has done when the write is reported as done. -/
theorem usbWriteLoop_cons {bulks : List BulkWrite} {zero : Bool} {c : Byte}
    (h0 : usbWriteLoop zero (b :: bulks) (c :: data) h = some (0, ts)) :
    ∃ h' t later, ts = t :: later ∧ t.data = (c :: data).take 4096 ∧
      (t.Complete ∨ t.data.length = 0 ∨ (t.data.length : ℤ) = ETIMEDOUT) ∧
      usbWriteLoop zero bulks ((c :: data).drop 4096) h' = some (0, later) := by
  rw [usbWriteLoop] at h0
  obtain ⟨⟨n, h', ts₁⟩, hcall, hrest⟩ := bind_eq_some_iff.mp h0
  dsimp only at hrest
  split at hrest
  next => cases hrest
  next hn =>
    rw [not_not] at hn
    subst hn
    obtain ⟨⟨ret, later⟩, hloop, heq⟩ := map_eq_some_iff.mp hrest
    obtain ⟨rfl, rfl⟩ := Prod.mk.inj heq
    obtain ⟨t, rfl, hdata, hdone⟩ := usbBulkWrite_spec hcall
    exact ⟨h', t, later, rfl, hdata, hdata.symm ▸ hdone, hloop⟩

theorem usbWriteLoop_complete {bulks : List BulkWrite} (hlen : data.length % 4096 ≠ 110)
    (h0 : usbWriteLoop false bulks data h = some (0, ts)) :
    ts.flatMap Transfer.data = data ∧ ∀ t ∈ ts, t.data.length ≤ 4096 ∧ t.Complete := by
  induction bulks generalizing data h ts with
  | nil =>
    cases data with
    | nil =>
      cases h0
      exact ⟨rfl, nofun⟩
    | cons c data => cases h0
  | cons b bulks ih =>
    cases data with
    | nil =>
      cases h0
      exact ⟨rfl, nofun⟩
    | cons c data =>
      obtain ⟨h', t, later, rfl, hdata, hdone, hloop⟩ := usbWriteLoop_cons h0
      have hdrop : ((c :: data).drop 4096).length % 4096 ≠ 110 := by
        rw [length_drop]
        omega
      obtain ⟨hbuffer, hall⟩ := ih hdrop hloop
      have hcomplete : t.Complete := by
        refine hdone.resolve_right ?_
        rw [hdata, length_take, ETIMEDOUT]
        rw [length_cons] at hlen ⊢
        omega
      refine ⟨?_, forall_mem_cons.mpr ⟨⟨?_, hcomplete⟩, hall⟩⟩
      · rw [flatMap_cons, hdata, hbuffer, take_append_drop]
      · rw [hdata]
        exact length_take_le _ _

end Complete

section Agreement

variable {h : Handle} {data : List Byte} {bulks : List BulkWrite} {ts : List Transfer}

/-- A transfer as `Wire.usbWrite` sees it. -/
def Transfer.result (t : Transfer) : Wire.BulkResult :=
  if t.Complete then .complete else .broken (t.finished.elim 0 fun r => r.2.toNat)

/-- The loop leaves the result of the empty transfer, if there is one. -/
theorem usbWriteLoop_agrees {zero : Bool} {fuel : ℕ} (hfuel : data.length ≤ fuel)
    (hret : usbWriteLoop zero bulks data h = some (0, ts)) (hall : ∀ t ∈ ts, t.Complete) :
    Wire.usbWriteLoop fuel data (ts.map Transfer.result) =
      ⟨data, true, replicate zero.toNat .complete⟩ := by
  have hempty : ∀ fuel rest, Wire.usbWriteLoop fuel [] rest = ⟨[], true, rest⟩ := by
    intro fuel rest
    cases fuel <;> rfl
  induction bulks generalizing data h ts fuel with
  | nil =>
    cases data with
    | cons c data => cases hret
    | nil =>
      cases zero with
      | true => cases hret
      | false =>
        cases hret
        exact hempty fuel []
  | cons b bulks ih =>
    cases data with
    | nil =>
      cases zero with
      | false =>
        cases hret
        exact hempty fuel []
      | true =>
        obtain ⟨⟨n, h', ts'⟩, hcall, heq⟩ := map_eq_some_iff.mp hret
        cases heq
        obtain ⟨t, rfl, -⟩ := usbBulkWrite_spec hcall
        have ht : t.result = .complete := if_pos (hall t (mem_singleton_self t))
        rw [map_singleton, ht]
        exact hempty fuel _
    | cons c data =>
      obtain ⟨h', t, later, rfl, -, -, hloop⟩ := usbWriteLoop_cons hret
      obtain ⟨hfirst, hall⟩ := forall_mem_cons.mp hall
      have ht : t.result = .complete := if_pos hfirst
      rw [length_cons] at hfuel
      obtain ⟨fuel, rfl⟩ := Nat.exists_eq_add_of_le' (Nat.one_le_of_lt hfuel)
      have hdrop : ((c :: data).drop 4096).length ≤ fuel := by
        rw [length_drop, length_cons]
        omega
      rw [map_cons, ht, Wire.usbWriteLoop, Wire.usbBulkWrite, Written.andThen, if_pos rfl,
        ih hdrop hloop hall]
      · simp
      · exact cons_ne_nil c data

/-- A write that `usb_write` reports as done, and whose transfers are complete, is a complete one
for `input_thread`. -/
theorem usbWrite_agrees {zeroMask : ℕ} (hret : usbWrite zeroMask data bulks h = some (0, ts))
    (hall : ∀ t ∈ ts, t.Complete) :
    Wire.usbWrite zeroMask data (ts.map Transfer.result) = ⟨data, true, []⟩ := by
  have hloop := usbWriteLoop_agrees le_rfl hret hall
  rw [Wire.usbWrite, hloop, Written.andThen, if_pos rfl]
  by_cases hzero : zeroMask ≠ 0 ∧ data.length &&& zeroMask = 0
  · simp [needZero, hzero, Wire.usbBulkWrite]
  · simp [needZero, hzero]

end Agreement

section Failures

variable {h : Handle} {data rest : List Byte}

def BulkWrite.finishing (n : ℕ) : BulkWrite := ⟨false, [.ok], [⟨[.reaped 0 n], false⟩]⟩

def BulkWrite.killed (timedOut : Bool) : BulkWrite := ⟨false, [.ok], [⟨[.kicked], timedOut⟩]⟩

def Handle.fresh : Handle := ⟨5, true, false, ⟨0, 0⟩, false⟩

theorem usbBulkWrite_finishing (halive : h.dead = false) (data : List Byte) :
    ∃ h', h'.dead = false ∧ usbBulkWrite h data (.finishing data.length) =
      some ((data.length : ℤ), h', [⟨data, some (0, (data.length : ℤ))⟩]) := by
  refine ⟨{ h with urbOut := ⟨0, data.length⟩, urbOutBusy := false }, halive, ?_⟩
  simp [usbBulkWrite, BulkWrite.finishing, Handle.maybeKicked, submitUrb, waitLoop, Waiting.after,
    halive]

theorem usbBulkWrite_killed (halive : h.dead = false) (data : List Byte) (timedOut : Bool) :
    ∃ h', usbBulkWrite h data (.killed timedOut) =
      some (if timedOut then ETIMEDOUT else 0, h', [⟨data, none⟩]) := by
  have hdead : ∀ h₀ : Handle, h₀.usbKick.dead = true := by
    intro h₀
    simp only [Handle.usbKick]
    split
    next hd => exact hd
    next => split <;> rfl
  have hwait : waitLoop [⟨[.kicked], timedOut⟩]
      ⟨{ h with urbOut := ⟨-1, 0⟩, urbOutBusy := true }, none⟩ =
        some (if timedOut then ETIMEDOUT else 0,
          ⟨({ h with urbOut := ⟨-1, 0⟩, urbOutBusy := true } : Handle).usbKick, none⟩) := by
    rw [waitLoop]
    exact if_pos (hdead _)
  refine ⟨({ h with urbOut := ⟨-1, 0⟩, urbOutBusy := true } : Handle).usbKick, ?_⟩
  change (if h.dead = true then _ else Option.map _ (waitLoop [⟨[.kicked], timedOut⟩]
    ⟨{ h with urbOut := ⟨-1, 0⟩, urbOutBusy := true }, none⟩)) = _
  rw [if_neg (by simp [halive]), hwait]
  rfl

/-- A last transfer of 110 bytes that is killed when the wait has timed out looks finished. -/
theorem usbWriteLoop_killed (halive : h.dead = false) (hlen : data.length = 110) :
    usbWriteLoop false [.killed true] data h = some (0, [⟨data, none⟩]) := by
  obtain ⟨h', hcall⟩ := usbBulkWrite_killed halive data true
  have htake : data.take 4096 = data := take_of_length_le (by omega)
  have hdrop : data.drop 4096 = [] := drop_of_length_le (by omega)
  have hres : (if true then ETIMEDOUT else 0) = (data.length : ℤ) := by
    rw [hlen]
    rfl
  cases data with
  | nil => cases hlen
  | cons c data =>
    rw [usbWriteLoop, htake, hdrop, hcall, hres, bind_some]
    exact if_neg (not_not.mpr rfl)

def Sends (data rest : List Byte) : Prop :=
  ∀ h : Handle, h.dead = false → ∃ bulks ts h', h'.dead = false ∧ (∀ t ∈ ts, t.data ≠ []) ∧
    ∀ needZero more, usbWriteLoop needZero (bulks ++ more) data h =
      (usbWriteLoop needZero more rest h').map fun s => (s.1, ts ++ s.2)

theorem Sends.refl (data : List Byte) : Sends data data := by
  intro h halive
  refine ⟨[], [], h, halive, nofun, fun needZero more => ?_⟩
  simp

theorem Sends.trans {mid : List Byte} (h₁ : Sends data mid) (h₂ : Sends mid rest) :
    Sends data rest := by
  intro h halive
  obtain ⟨bulks₁, ts₁, h', halive', hne₁, hloop₁⟩ := h₁ h halive
  obtain ⟨bulks₂, ts₂, h'', halive'', hne₂, hloop₂⟩ := h₂ h' halive'
  refine ⟨bulks₁ ++ bulks₂, ts₁ ++ ts₂, h'', halive'', ?_, fun needZero more => ?_⟩
  · intro t ht
    exact (mem_append.mp ht).elim (hne₁ t) (hne₂ t)
  · rw [append_assoc, hloop₁, hloop₂, Option.map_map]
    simp only [Function.comp_def, append_assoc]

theorem Sends.chunk (hne : data ≠ []) : Sends data (data.drop 4096) := by
  intro h halive
  obtain ⟨c, data, rfl⟩ := exists_cons_of_ne_nil hne
  have hxfer : (c :: data).take 4096 ≠ [] := by simp
  obtain ⟨h', halive', hcall⟩ := usbBulkWrite_finishing halive ((c :: data).take 4096)
  refine ⟨[.finishing ((c :: data).take 4096).length],
    [⟨(c :: data).take 4096, some (0, (((c :: data).take 4096).length : ℤ))⟩], h', halive', ?_, ?_⟩
  · intro t ht
    cases mem_singleton.mp ht
    exact hxfer
  · intro needZero more
    rw [singleton_append, usbWriteLoop, hcall, bind_some]
    exact if_neg (not_not.mpr rfl)

theorem Sends.drop (k : ℕ) (hk : 4096 * k ≤ data.length) : Sends data (data.drop (4096 * k)) := by
  induction k with
  | zero => exact .refl data
  | succ k ih =>
    refine (ih (by omega)).trans ?_
    have hstep : Sends (data.drop (4096 * k)) ((data.drop (4096 * k)).drop 4096) := by
      apply Sends.chunk
      intro hnil
      have := drop_eq_nil_iff.mp hnil
      omega
    rw [drop_drop] at hstep
    exact hstep

theorem Sends.all (data : List Byte) : Sends data [] := by
  have hfull := Sends.drop (data.length / 4096) (Nat.mul_div_le data.length 4096)
  refine hfull.trans ?_
  set last := data.drop (4096 * (data.length / 4096)) with hlast
  have hlen : last.length < 4096 := by
    rw [hlast, length_drop]
    omega
  by_cases hnil : last = []
  · rw [hnil]
    exact .refl []
  · have hchunk := Sends.chunk hnil
    rw [drop_of_length_le hlen.le] at hchunk
    exact hchunk

/-- A call that returns 0 has completed all transfers, and the empty one where it is needed,
exactly when no empty transfer is made or needed and the last one is not of 110 bytes. -/
theorem usb_write_complete_iff (zeroMask : ℕ) (data : List Byte) :
    (∀ h bulks ts, usbWrite zeroMask data bulks h = some (0, ts) → Delivered zeroMask data ts) ↔
      (zeroMask ≠ 0 → data.length &&& zeroMask ≠ 0 ∧ ¬zeroMask + 1 ∣ data.length) ∧
        data.length % 4096 ≠ 110 := by
  constructor
  · intro hall
    by_cases hzero : needZero zeroMask data.length = true
    · -- the empty transfer is killed, and its result is the 0 of the wait
      obtain ⟨bulks, ts, h, halive, -, hloop⟩ := Sends.all data Handle.fresh rfl
      obtain ⟨h', hcall⟩ := usbBulkWrite_killed halive [] false
      have hret : usbWrite zeroMask data (bulks ++ [.killed false]) Handle.fresh =
          some (0, ts ++ [⟨[], none⟩]) := by
        rw [usbWrite, hloop, hzero, usbWriteLoop, if_pos rfl, hcall]
        rfl
      have hdone := (hall _ _ _ hret).complete ⟨[], none⟩ (by simp)
      cases hdone
    · rw [Bool.not_eq_true] at hzero
      refine ⟨fun hne => ⟨?_, fun hdvd => ?_⟩, fun hlen => ?_⟩
      · rw [needZero, decide_eq_false_iff_not, not_and] at hzero
        exact hzero hne
      · -- every transfer is finished, and the empty one is missing
        obtain ⟨bulks, ts, h, halive, hfull, hloop⟩ := Sends.all data Handle.fresh rfl
        have hret : usbWrite zeroMask data (bulks ++ []) Handle.fresh = some (0, ts ++ []) := by
          rw [usbWrite, hloop, hzero]
          rfl
        obtain ⟨t, hlast, hempty⟩ := (hall _ _ _ hret).terminated hne hdvd
        rw [append_nil] at hlast
        exact hfull t (mem_of_getLast? hlast) hempty
      · -- the last transfer is killed, and its result is the `ETIMEDOUT` of the wait
        have hk : 4096 * (data.length / 4096) ≤ data.length := Nat.mul_div_le data.length 4096
        obtain ⟨bulks, ts, h, halive, -, hloop⟩ := Sends.drop _ hk Handle.fresh rfl
        have hlast : (data.drop (4096 * (data.length / 4096))).length = 110 := by
          rw [length_drop]
          omega
        have hret : usbWrite zeroMask data (bulks ++ [.killed true]) Handle.fresh =
            some (0, ts ++ [⟨data.drop (4096 * (data.length / 4096)), none⟩]) := by
          rw [usbWrite, hloop, hzero, usbWriteLoop_killed halive hlast]
          rfl
        have hdone := (hall _ _ _ hret).complete ⟨_, none⟩ (mem_append_right ts
          mem_cons_self)
        cases hdone
  · rintro ⟨hmask, hlen⟩ h bulks ts hret
    have hzero : needZero zeroMask data.length = false := by
      rw [needZero, decide_eq_false_iff_not]
      exact fun hz => (hmask hz.1).1 hz.2
    rw [usbWrite, hzero] at hret
    obtain ⟨hbuffer, hts⟩ := usbWriteLoop_complete hlen hret
    exact ⟨hbuffer, fun t ht => (hts t ht).1, fun t ht => (hts t ht).2,
      fun hne hdvd => absurd hdvd (hmask hne).2⟩

/-- The device is unplugged during the empty transfer. -/
theorem usb_write_unplugged :
    usbWrite 63 (replicate 64 0) [.finishing 64, .killed false] .fresh =
        some (0, [⟨replicate 64 0, some (0, 64)⟩, ⟨[], none⟩]) ∧
      ¬∀ h bulks ts, usbWrite 63 (replicate 64 0) bulks h = some (0, ts) →
        Delivered 63 (replicate 64 0) ts := by
  have hret : usbWrite 63 (replicate 64 0) [.finishing 64, .killed false] .fresh =
      some (0, [⟨replicate 64 0, some (0, 64)⟩, ⟨[], none⟩]) := by decide +kernel
  refine ⟨hret, fun hall => ?_⟩
  have hdone := (hall _ _ _ hret).complete ⟨[], none⟩ (by simp)
  cases hdone

end Failures

section Read

/-- One `ioctl` that reaps: its `errno`, or a transfer that has finished, with the bytes that were
stored if it is the one of the reader. -/
inductive Reap where
  | failed (errno : ℤ)
  | urbIn (status : ℤ) (stored : List Byte)
  | urbOut (status actualLength : ℤ)
  deriving DecidableEq, Repr

/-- What one call of `usb_bulk_read` meets; each `ioctl` that reaps with whether the handle is
kicked meanwhile. -/
structure BulkRead where
  kicked : Bool
  submits : List Submit
  reaps : List (Bool × Reap)
  deriving DecidableEq, Repr

/-- What `usb_bulk_read` returns and leaves: the handle, `errno` and the bytes it stored. -/
structure ReadOutcome where
  result : ℤ
  handle : Handle
  errno : ℤ
  stored : List Byte
  deriving DecidableEq, Repr

def Reap.errno (errno : ℤ) : Reap → ℤ
  | .failed e => e
  | _ => errno

/-- A transfer stores no more than was asked for. -/
def Reap.stored (len : ℕ) : Reap → List Byte
  | .urbIn _ stored => stored.take len
  | _ => []

/-- The kernel leaves the status of the transfer of the writer. -/
def Reap.arrive (h : Handle) : Reap → Handle
  | .urbOut status actualLength => { h with urbOut := ⟨status, actualLength⟩ }
  | _ => h

def reapLoop (len : ℕ) : List (Bool × Reap) → Handle → ℤ → Option ReadOutcome
  | [], _, _ => none
  | (kicked, reap) :: reaps, h, errno =>
      let h := (reap.arrive h).maybeKicked kicked
      if h.dead then some ⟨-1, h, reap.errno errno, reap.stored len⟩
      else
        match reap with
        | .failed e => if e = EINTR then reapLoop len reaps h e else some ⟨-1, h, e, []⟩
        | .urbIn status stored =>
            some ⟨if status = 0 then (stored.take len).length else -1, h, errno, stored.take len⟩
        | .urbOut _ _ => reapLoop len reaps { h with urbOutBusy := false } errno

def usbBulkRead (len : ℕ) (h : Handle) (errno : ℤ) (b : BulkRead) : Option ReadOutcome :=
  let h := h.maybeKicked b.kicked
  if h.dead then some ⟨-1, h, errno, []⟩
  else
    match submitUrb b.submits errno with
    | none => none
    | some (false, errno) => some ⟨-1, h, errno, []⟩
    | some (true, errno) => reapLoop len b.reaps h errno

/-- `usb_read` at the head of its loop: `offset` is how far `data` is in the buffer, and `received`
are the bytes that `usb_bulk_read` has reported so far. -/
structure Reading where
  handle : Handle
  errno : ℤ
  buffer : Memory
  offset : ℕ
  len : ℕ
  received : List Byte

def Reading.after (r : Reading) (x : ReadOutcome) : Reading :=
  { r with
    handle := x.handle
    errno := x.errno
    buffer := storeAt r.buffer r.offset x.stored
    received := r.received ++ if 0 < x.result then x.stored else [] }

def Reading.advance (r : Reading) (n : ℕ) : Reading :=
  { r with offset := r.offset + n, len := r.len - n }

def Reading.xfer (r : Reading) : ℕ := if r.len > 4096 then 4096 else r.len

/-- The body of the loop after a call: the loop goes on, or `usb_read` returns -1. -/
def Reading.next (r : Reading) (x : ReadOutcome) : Option Reading :=
  let r' := r.after x
  if x.result ≠ r.xfer then
    if r'.errno = ETIMEDOUT ∧ r'.handle.desc ≠ -1 then
      some (if 0 < x.result then r'.advance x.result.toNat else r')
    else none
  else some (r'.advance r.xfer)

/-- The loop: what `usb_read` returns and how it has left the buffer. There is no result while it
goes on. -/
def usbReadLoop : List BulkRead → Reading → Option (ℤ × Reading)
  | [], r => if r.len = 0 then some (0, r) else none
  | b :: bulks, r =>
      if r.len = 0 then some (0, r)
      else
        (usbBulkRead r.xfer r.handle r.errno b).bind fun x =>
          match r.next x with
          | some r' => usbReadLoop bulks r'
          | none => some (-1, r.after x)

def readAfter : List BulkRead → Reading → Option Reading
  | [], r => some r
  | b :: bulks, r =>
      if r.len = 0 then none
      else (usbBulkRead r.xfer r.handle r.errno b).bind fun x => (r.next x).bind (readAfter bulks)

def Reading.start (h : Handle) (errno : ℤ) (buffer : Memory) (len : ℕ) : Reading :=
  ⟨h, errno, buffer, 0, len, []⟩

def usbRead (h : Handle) (errno : ℤ) (buffer : Memory) (len : ℕ) (bulks : List BulkRead) :
    Option (ℤ × Reading) :=
  usbReadLoop bulks (.start h errno buffer len)

end Read

section Exact

variable {h : Handle} {errno : ℤ} {b : BulkRead} {x : ReadOutcome} {r r' : Reading} {len total : ℕ}

/-- The result is -1 or the number of the bytes that were stored. -/
def ReadOutcome.Sound (len : ℕ) (x : ReadOutcome) : Prop :=
  x.result = -1 ∨ x.result = x.stored.length ∧ x.stored.length ≤ len

theorem reapLoop_dead {kicked : Bool} {reap : Reap} {reaps : List (Bool × Reap)}
    (hdead : ((reap.arrive h).maybeKicked kicked).dead = true) :
    reapLoop len ((kicked, reap) :: reaps) h errno =
      some ⟨-1, (reap.arrive h).maybeKicked kicked, reap.errno errno, reap.stored len⟩ := by
  rw [reapLoop.eq_def]
  exact if_pos hdead

theorem reapLoop_sound {reaps : List (Bool × Reap)} (hloop : reapLoop len reaps h errno = some x) :
    x.Sound len := by
  induction reaps generalizing h errno with
  | nil => cases hloop
  | cons step reaps ih =>
    obtain ⟨kicked, reap⟩ := step
    by_cases hdead : ((reap.arrive h).maybeKicked kicked).dead = true
    · rw [reapLoop_dead hdead] at hloop
      cases hloop
      exact .inl rfl
    · cases reap with
      | failed e =>
        rw [reapLoop, if_neg hdead] at hloop
        split at hloop
        next => exact ih hloop
        next =>
          cases hloop
          exact .inl rfl
      | urbIn status stored =>
        rw [reapLoop, if_neg hdead] at hloop
        cases hloop
        by_cases hstatus : status = 0
        · exact .inr ⟨if_pos hstatus, length_take_le _ _⟩
        · exact .inl (if_neg hstatus)
      | urbOut status actualLength =>
        rw [reapLoop, if_neg hdead] at hloop
        exact ih hloop

theorem usbBulkRead_sound (hcall : usbBulkRead len h errno b = some x) : x.Sound len := by
  rw [usbBulkRead] at hcall
  split at hcall
  next =>
    cases hcall
    exact .inl rfl
  next =>
    split at hcall
    next => cases hcall
    next =>
      cases hcall
      exact .inl rfl
    next => exact reapLoop_sound hcall

/-- The buffer holds what was received, and the rest is still to come. -/
structure Reading.Exact (total : ℕ) (r : Reading) : Prop where
  length : r.received.length = r.offset
  buffer : ∀ i < r.offset, r.buffer i = r.received.getD i 0
  total : r.offset + r.len = total

theorem Reading.xfer_le (r : Reading) : r.xfer ≤ r.len := by
  rw [Reading.xfer]
  split <;> omega

theorem Reading.Exact.failed (hr : r.Exact total) (hx : ¬0 < x.result) :
    (r.after x).Exact total := by
  have hsame : (r.after x).received = r.received := by
    rw [Reading.after]
    dsimp only
    rw [if_neg hx, append_nil]
  refine ⟨hsame ▸ hr.length, fun i hi => ?_, hr.total⟩
  have hi' : i < r.offset := hi
  rw [hsame, ← hr.buffer i hi']
  exact if_neg (by omega)

theorem Reading.Exact.received (hr : r.Exact total) (hpos : 0 < x.result)
    (hle : x.stored.length ≤ r.len) :
    ((r.after x).advance x.stored.length).Exact total := by
  have hmore : (r.after x).received = r.received ++ x.stored := by
    rw [Reading.after]
    dsimp only
    rw [if_pos hpos]
  have hlen := hr.length
  have htotal := hr.total
  refine ⟨?_, fun i hi => ?_, ?_⟩
  · change (r.after x).received.length = r.offset + x.stored.length
    rw [hmore, length_append, hlen]
  · have hi' : i < r.offset + x.stored.length := hi
    change storeAt r.buffer r.offset x.stored i = (r.after x).received.getD i 0
    rw [hmore, storeAt]
    by_cases hold : i < r.offset
    · rw [if_neg (by omega), hr.buffer i hold, getD_append _ _ _ _ (by omega)]
    · rw [if_pos (by omega), getD_append_right _ _ _ _ (by omega), hlen]
  · change r.offset + x.stored.length + (r.len - x.stored.length) = total
    omega

theorem Reading.Exact.next (hr : r.Exact total) (hlen : r.len ≠ 0) (hx : x.Sound r.xfer)
    (hnext : r.next x = some r') : r'.Exact total := by
  have hxfer := r.xfer_le
  rw [Reading.next] at hnext
  split at hnext
  next hne =>
    split at hnext
    next =>
      split at hnext
      next hpos =>
        cases hnext
        rcases hx with hneg | ⟨hn, hle⟩
        · omega
        · rw [hn, Int.toNat_natCast]
          exact hr.received hpos (hle.trans hxfer)
      next hpos =>
        cases hnext
        exact hr.failed hpos
    next => cases hnext
  next heq =>
    rw [not_not] at heq
    cases hnext
    have hpos : 0 < r.xfer := by
      rw [Reading.xfer]
      split <;> omega
    rcases hx with hneg | ⟨hn, hle⟩
    · omega
    · have hall : r.xfer = x.stored.length := by omega
      rw [hall]
      exact hr.received (by omega) (by omega)

theorem Reading.Exact.loop {bulks : List BulkRead} (hr : r.Exact total)
    (hret : usbReadLoop bulks r = some (0, r')) : r'.Exact total ∧ r'.len = 0 := by
  induction bulks generalizing r with
  | nil =>
    rw [usbReadLoop] at hret
    split at hret <;> cases hret
    next hzero =>
      exact ⟨hr, hzero⟩
  | cons b bulks ih =>
    rw [usbReadLoop] at hret
    split at hret
    next hzero =>
      cases hret
      exact ⟨hr, hzero⟩
    next hlen =>
      obtain ⟨x, hcall, hrest⟩ := bind_eq_some_iff.mp hret
      split at hrest
      next r₁ hnext => exact ih (hr.next hlen (usbBulkRead_sound hcall) hnext) hrest
      next => cases hrest

end Exact

section Dead

variable {h : Handle} {errno : ℤ} {b : BulkRead} {r : Reading} {len : ℕ}

theorem usbKick_dead (hdead : h.dead = true) (kicked : Bool) : h.maybeKicked kicked = h := by
  cases kicked with
  | false => rfl
  | true => exact if_pos hdead

theorem usbBulkRead_dead (hdead : h.dead = true) :
    usbBulkRead len h errno b = some ⟨-1, h, errno, []⟩ := by
  rw [usbBulkRead, usbKick_dead hdead]
  exact if_pos hdead

theorem next_failed {x : ReadOutcome} (hx : x.result = -1) :
    r.next x =
      if x.errno = ETIMEDOUT ∧ x.handle.desc ≠ -1 then some (r.after x) else none := by
  have hxfer : (-1 : ℤ) ≠ r.xfer := by omega
  have hneg : ¬(0 : ℤ) < -1 := by decide
  rw [Reading.next, hx, if_pos hxfer, if_neg hneg]
  rfl

/-- With a dead handle `usb_read` returns after one more call unless `errno` is `ETIMEDOUT`. -/
theorem usbReadLoop_dead_iff (hdead : r.handle.dead = true) (hlen : r.len ≠ 0) :
    (∃ r', usbReadLoop [b] r = some (-1, r')) ↔
      r.errno ≠ ETIMEDOUT ∨ r.handle.desc = -1 := by
  rw [usbReadLoop, if_neg hlen, usbBulkRead_dead hdead, bind_some, next_failed rfl]
  by_cases hretry : r.errno = ETIMEDOUT ∧ r.handle.desc ≠ -1
  · have hlen' : (r.after ⟨-1, r.handle, r.errno, []⟩).len ≠ 0 := hlen
    rw [if_pos hretry]
    refine iff_of_false ?_ ?_
    · rintro ⟨r', hr'⟩
      cases (if_neg hlen').symm.trans hr'
    · rw [not_or, not_not]
      exact hretry
  · rw [if_neg hretry]
    refine iff_of_true ⟨_, rfl⟩ ?_
    rw [not_and_or, not_not] at hretry
    exact hretry

end Dead

section UsbRead

/-- The buffer holds exactly the bytes that were received, in their order. -/
def Received (len : ℕ) (r : Reading) : Prop :=
  r.received.length = len ∧ ∀ i < len, r.buffer i = r.received.getD i 0

/-- `usb_read` comes to a call on a dead handle. -/
def DeadCall (h : Handle) (errno : ℤ) (buffer : Memory) (len : ℕ) (bulks : List BulkRead)
    (b : BulkRead) (r : Reading) : Prop :=
  ∃ pre post, bulks = pre ++ b :: post ∧ readAfter pre (.start h errno buffer len) = some r ∧
    r.len ≠ 0 ∧ r.handle.dead = true

/-- Success is exact, and `usb_read` returns after one call on a dead handle exactly when `errno`
is not `ETIMEDOUT` from an earlier call. -/
theorem usb_read_exact_iff (h : Handle) (errno : ℤ) (buffer : Memory) (len : ℕ)
    (bulks : List BulkRead) :
    ((∀ r, usbRead h errno buffer len bulks = some (0, r) → Received len r) ∧
      ∀ b r, DeadCall h errno buffer len bulks b r →
        ∃ r', usbReadLoop [b] r = some (-1, r')) ↔
      ∀ b r, DeadCall h errno buffer len bulks b r →
        r.errno ≠ ETIMEDOUT ∨ r.handle.desc = -1 := by
  constructor
  · rintro ⟨-, hstop⟩ b r hcall
    obtain ⟨pre, post, -, -, hlen, hdead⟩ := id hcall
    exact (usbReadLoop_dead_iff hdead hlen).mp (hstop b r hcall)
  · intro hcond
    refine ⟨fun r hret => ?_, fun b r hcall => ?_⟩
    · have hstart : (Reading.start h errno buffer len).Exact len :=
        ⟨rfl, nofun, Nat.zero_add len⟩
      obtain ⟨hexact, hzero⟩ := hstart.loop hret
      have hoffset : r.offset = len := by
        have := hexact.total
        omega
      rw [Received, ← hoffset]
      exact ⟨hexact.length, hexact.buffer⟩
    · obtain ⟨pre, post, -, -, hlen, hdead⟩ := id hcall
      exact (usbReadLoop_dead_iff hdead hlen).mpr (hcond b r hcall)

/-- With `ETIMEDOUT` in `errno` the loop does not end on a dead handle. -/
theorem usbReadLoop_spins {r : Reading} (hdead : r.handle.dead = true) (hlen : r.len ≠ 0)
    (herrno : r.errno = ETIMEDOUT) (hdesc : r.handle.desc ≠ -1) (bulks : List BulkRead) :
    usbReadLoop bulks r = none := by
  induction bulks generalizing r with
  | nil => exact if_neg hlen
  | cons b bulks ih =>
    rw [usbReadLoop, if_neg hlen, usbBulkRead_dead hdead, bind_some, next_failed rfl,
      if_pos ⟨herrno, hdesc⟩]
    exact ih hdead hlen herrno hdesc

/-- The handle was kicked before a packet is read. -/
theorem usb_read_spins :
    (∀ bulks, usbRead Handle.fresh.usbKick ETIMEDOUT (fun _ => 0) 24 bulks = none) ∧
      ¬((∀ r, usbRead Handle.fresh.usbKick ETIMEDOUT (fun _ => 0) 24 [⟨false, [], []⟩] =
          some (0, r) → Received 24 r) ∧
        ∀ b r, DeadCall Handle.fresh.usbKick ETIMEDOUT (fun _ => 0) 24 [⟨false, [], []⟩] b r →
          ∃ r', usbReadLoop [b] r = some (-1, r')) := by
  have hdead : (Reading.start Handle.fresh.usbKick ETIMEDOUT (fun _ => 0) 24).handle.dead = true :=
    rfl
  have hspin := usbReadLoop_spins hdead (by decide) rfl (by decide)
  refine ⟨hspin, fun ⟨_, hstop⟩ => ?_⟩
  obtain ⟨r', hr'⟩ := hstop ⟨false, [], []⟩ _ ⟨[], [], rfl, rfl, by decide, hdead⟩
  cases (hspin _).symm.trans hr'

end UsbRead

end PaxAdb.Usb
