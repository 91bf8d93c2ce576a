import PaxAdb.Cells
import PaxAdb.SystemCalls
import PaxAdb.Traced

/-!
# The USB descriptor scan

`find_usb_device` reads a node of `/dev/bus/usb` into a buffer of 4096 bytes and looks through the
descriptors in it for the ADB interface. Of the buffer only the bytes that were read are known; what
is behind them is whatever the stack held before. The offsets that are inspected are noted.
-/

namespace PaxAdb.Usb

open Cells Traced List Except

def USB_DT_DEVICE : Byte := 0x01
def USB_DT_CONFIG : Byte := 0x02
def USB_DT_INTERFACE : Byte := 0x04
def USB_DT_ENDPOINT : Byte := 0x05

def USB_DT_DEVICE_SIZE : ℕ := 18
def USB_DT_CONFIG_SIZE : ℕ := 9
def USB_DT_INTERFACE_SIZE : ℕ := 9
def USB_DT_ENDPOINT_SIZE : ℕ := 7

def USB_ENDPOINT_XFER_BULK : Byte := 2
def USB_ENDPOINT_DIR_MASK : Byte := 0x80

def ADB_CLASS : Byte := 0xff
def ADB_SUBCLASS : Byte := 0x42
def ADB_PROTOCOL : Byte := 0x1

section Scan

/-- What `register_device_callback` is told of the descriptors. -/
structure Device where
  epIn : Byte
  epOut : Byte
  ifc : Byte
  serialIndex : Byte
  zeroMask : ℕ
  deriving DecidableEq, Repr

inductive End where
  | nothing
  | registered (device : Device)
  deriving DecidableEq, Repr

abbrev Scan := Traced ℕ End

/-- The result of reading a node: an error, or the number of bytes. -/
abbrev Count := Option ℕ

/-- The result of `adb_read` as a `size_t` -/
def desclength : Count → ℕ
  | none => 2 ^ 64 - 1
  | some n => n

/-- Where `bufend` points, from the start of the buffer: a read error wraps around. -/
def bufend : Count → ℤ
  | none => -1
  | some n => n

variable (vendorIds : List ℕ) (devdesc : Memory) (count : Count)

def inspect (i : ℕ) : Scan Byte := note i (devdesc i)

def inspect16 (i : ℕ) : Scan ℕ := do
  let low ← inspect devdesc i
  let high ← inspect devdesc (i + 1)
  pure (low.toNat + 256 * high.toNat)

def isAdbInterface (vid : ℕ) (usbClass usbSubclass usbProtocol : Byte) : Bool :=
  vid ∈ vendorIds ∧ usbClass = ADB_CLASS ∧ usbSubclass = ADB_SUBCLASS ∧ usbProtocol = ADB_PROTOCOL

def endpointsFollow (ep1 ep2 : ℕ) : Scan Bool := do
  let length1 ← inspect devdesc ep1
  if length1.toNat ≠ USB_DT_ENDPOINT_SIZE then pure false
  else do
    let type1 ← inspect devdesc (ep1 + 1)
    if type1 ≠ USB_DT_ENDPOINT then pure false
    else do
      let length2 ← inspect devdesc ep2
      if length2.toNat ≠ USB_DT_ENDPOINT_SIZE then pure false
      else do
        let type2 ← inspect devdesc (ep2 + 1)
        pure (type2 = USB_DT_ENDPOINT)

def bothBulk (ep1 ep2 : ℕ) : Scan Bool := do
  let attributes1 ← inspect devdesc (ep1 + 3)
  if attributes1 ≠ USB_ENDPOINT_XFER_BULK then pure false
  else do
    let attributes2 ← inspect devdesc (ep2 + 3)
    pure (attributes2 = USB_ENDPOINT_XFER_BULK)

def registerDevice (interface ep1 ep2 : ℕ) : Scan ℕ := do
  let protocol ← inspect devdesc (interface + 7)
  let zeroMask ← (
    if protocol = 0x01 then do
      let wMaxPacketSize ← inspect16 devdesc (ep1 + 4)
      pure ((wMaxPacketSize + 2 ^ 32 - 1) % 2 ^ 32)
    else pure 0)
  let address1 ← inspect devdesc (ep1 + 2)
  let address2 ← inspect devdesc (ep2 + 2)
  let ifc ← inspect devdesc (interface + 2)
  let serialIndex ← inspect devdesc 16
  let (epIn, epOut) :=
    if address1 &&& USB_ENDPOINT_DIR_MASK ≠ 0 then (address1, address2) else (address2, address1)
  exit (.registered ⟨epIn, epOut, ifc, serialIndex, zeroMask⟩)

/-- An interface that looks like ADB; `bufptr` is behind it. -/
def bulkEndpoints (interface bufptr : ℕ) : Scan ℕ :=
  let ep1 := bufptr
  let ep2 := bufptr + USB_DT_ENDPOINT_SIZE
  let bufptr := bufptr + 2 * USB_DT_ENDPOINT_SIZE
  if bufptr > bufend count then exit .nothing
  else do
    if ← endpointsFollow devdesc ep1 ep2 then
      if ← bothBulk devdesc ep1 ep2 then registerDevice devdesc interface ep1 ep2
      else pure bufptr
    else exit .nothing

def interfaceDescriptor (vid interface bufptr : ℕ) : Scan ℕ := do
  let bNumEndpoints ← inspect devdesc (interface + 4)
  if bNumEndpoints = 2 then do
    let usbClass ← inspect devdesc (interface + 5)
    let usbSubclass ← inspect devdesc (interface + 6)
    let usbProtocol ← inspect devdesc (interface + 7)
    if isAdbInterface vendorIds vid usbClass usbSubclass usbProtocol then
      bulkEndpoints devdesc count interface bufptr
    else pure bufptr
  else pure bufptr

def descriptor (vid bufptr : ℕ) : Scan ℕ :=
  if bufptr < bufend count then do
    let length ← inspect devdesc bufptr
    let type ← inspect devdesc (bufptr + 1)
    if type = USB_DT_INTERFACE then
      if length.toNat ≠ USB_DT_INTERFACE_SIZE then exit .nothing
      else interfaceDescriptor vendorIds devdesc count vid bufptr (bufptr + length.toNat)
    else pure (bufptr + length.toNat)
  else exit .nothing

def deviceAndConfig : Scan ℕ :=
  if desclength count < USB_DT_DEVICE_SIZE + USB_DT_CONFIG_SIZE then exit .nothing
  else do
    let deviceLength ← inspect devdesc 0
    if deviceLength.toNat ≠ USB_DT_DEVICE_SIZE then exit .nothing
    else do
      let deviceType ← inspect devdesc 1
      if deviceType ≠ USB_DT_DEVICE then exit .nothing
      else do
        let vid ← inspect16 devdesc 8
        let _pid ← inspect16 devdesc 10
        let configLength ← inspect devdesc USB_DT_DEVICE_SIZE
        if configLength.toNat ≠ USB_DT_CONFIG_SIZE then exit .nothing
        else do
          let configType ← inspect devdesc (USB_DT_DEVICE_SIZE + 1)
          if configType ≠ USB_DT_CONFIG then exit .nothing
          else pure vid

/-- At most `k` rounds of the loop of `find_usb_device` on one node. -/
def findUsbDevice (k : ℕ) : Scan ℕ := do
  let vid ← deviceAndConfig devdesc count
  loop (descriptor vendorIds devdesc count vid) k (USB_DT_DEVICE_SIZE + USB_DT_CONFIG_SIZE)

end Scan

section Progress

variable {vendorIds : List ℕ} {devdesc : Memory} {count : Count} {vid interface p p' : ℕ}

def Visits (vendorIds : List ℕ) (devdesc : Memory) (count : Count) (p : ℕ) : Prop :=
  ∃ vid, (deviceAndConfig devdesc count).result = .ok vid ∧
    Reaches (descriptor vendorIds devdesc count vid) (USB_DT_DEVICE_SIZE + USB_DT_CONFIG_SIZE) p

/-- A descriptor of length 0 that is not one of an interface. -/
def Stuck (devdesc : Memory) (p : ℕ) : Prop :=
  devdesc p = 0 ∧ devdesc (p + 1) ≠ USB_DT_INTERFACE

theorem registerDevice_leaves (ep1 ep2 : ℕ) :
    (registerDevice devdesc interface ep1 ep2).result ≠ .ok p' := by
  intro h
  simp only [registerDevice, inspect, result_note_bind, result_bind_ok_iff] at h
  obtain ⟨_, -, h⟩ := h
  cases h

theorem bulkEndpoints_advances (h : (bulkEndpoints devdesc count interface p).result = .ok p') :
    p < p' := by
  rw [bulkEndpoints] at h
  split at h
  next => cases h
  next =>
    obtain ⟨follow, -, h⟩ := (result_bind_ok_iff _ _ _).mp h
    split at h
    next =>
      obtain ⟨bulk, -, h⟩ := (result_bind_ok_iff _ _ _).mp h
      split at h
      next => exact absurd h (registerDevice_leaves _ _)
      next =>
        cases h
        exact Nat.lt_add_of_pos_right (by decide)
    next => cases h

theorem interfaceDescriptor_advances
    (h : (interfaceDescriptor vendorIds devdesc count vid interface p).result = .ok p') :
    p ≤ p' := by
  simp only [interfaceDescriptor, inspect, result_note_bind] at h
  split at h
  next =>
    simp only [result_note_bind] at h
    split at h
    next => exact (bulkEndpoints_advances h).le
    next => exact (ok.inj h).le
  next => exact (ok.inj h).le

theorem descriptor_advances (h : (descriptor vendorIds devdesc count vid p).result = .ok p') :
    p < bufend count ∧ (p < p' ∨ Stuck devdesc p ∧ p' = p) := by
  rw [descriptor] at h
  split at h
  next hp =>
    refine ⟨hp, ?_⟩
    simp only [inspect, result_note_bind] at h
    split at h
    next =>
      split at h
      next => cases h
      next hsize =>
        rw [not_not] at hsize
        have hle := interfaceDescriptor_advances h
        rw [hsize, USB_DT_INTERFACE_SIZE] at hle
        omega
    next htype =>
      have hp' : p + (devdesc p).toNat = p' := ok.inj h
      by_cases hzero : devdesc p = 0
      · rw [hzero] at hp'
        exact Or.inr ⟨⟨hzero, htype⟩, hp'.symm⟩
      · have hpos : 0 < (devdesc p).toNat :=
          Nat.pos_of_ne_zero fun h0 => hzero (UInt8.toNat_inj.mp h0)
        omega
  next => cases h

theorem descriptor_stuck (hp : p < bufend count) (h : Stuck devdesc p) :
    (descriptor vendorIds devdesc count vid p).result = .ok p := by
  rw [descriptor, if_pos hp]
  simp only [inspect, result_note_bind, if_neg h.2, h.1]
  rfl

theorem findUsbDevice_ends_iff (hstart : (deviceAndConfig devdesc count).result = .ok vid) :
    (∃ k e, (findUsbDevice vendorIds devdesc count k).result = .error e) ↔
      Ends (descriptor vendorIds devdesc count vid)
        (USB_DT_DEVICE_SIZE + USB_DT_CONFIG_SIZE) := by
  simp only [findUsbDevice, bind_of_ok _ hstart, Ends]

/-- The loop comes to its end exactly when it does not meet a descriptor of length 0 on its way. -/
theorem descriptor_scan_ends_iff (vendorIds : List ℕ) (devdesc : Memory) (count : Count) :
    (∃ k e, (findUsbDevice vendorIds devdesc count k).result = .error e) ↔
      ∀ p : ℕ, Visits vendorIds devdesc count p → p < bufend count → ¬Stuck devdesc p := by
  cases hstart : (deviceAndConfig devdesc count).result with
  | error e =>
    constructor
    · rintro - p ⟨vid, hvid, -⟩
      cases hstart.symm.trans hvid
    · intro _
      exact ⟨0, e, by rw [findUsbDevice, bind_of_error _ hstart]⟩
  | ok vid =>
    rw [findUsbDevice_ends_iff hstart]
    constructor
    · rintro h p ⟨vid', hvid', hreach⟩ hp hstuck
      cases ok.inj (hstart.symm.trans hvid')
      exact not_ends_of_stuck hreach (descriptor_stuck hp hstuck) h
    · intro h
      refine Ends.of_measure (fun p => (bufend count - p).toNat) fun p p' hreach hp => ?_
      obtain ⟨hlt, hadv | ⟨hstuck, -⟩⟩ := descriptor_advances hp
      · omega
      · exact absurd hstuck (h p ⟨vid, hstart, hreach⟩ hlt)

def node (rest : List Byte) : Memory := fun i =>
  ([18, 1] ++ replicate 16 0 ++ [9, 2] ++ replicate 7 0 ++ rest).getD i 0

/-- The descriptor at offset 27 has length 0 and type 0: the scan goes on forever. -/
theorem descriptor_scan_stuck :
    ¬∃ k e, (findUsbDevice [] (node [0, 0]) (some 29) k).result = .error e := by
  have hstart : (deviceAndConfig (node [0, 0]) (some 29)).result = .ok 0 := by decide
  rw [findUsbDevice_ends_iff hstart]
  exact not_ends_of_stuck .refl (descriptor_stuck (by decide) ⟨by decide, by decide⟩)

end Progress

section Bounds

variable {vendorIds : List ℕ} {devdesc : Memory} {vid interface ep1 ep2 n p : ℕ}

def Whole (devdesc : Memory) (n p : ℕ) : Prop :=
  p + 1 < n ∧ (devdesc (p + 1) = USB_DT_INTERFACE → (devdesc p).toNat = USB_DT_INTERFACE_SIZE →
    p + 4 < n ∧ (devdesc (p + 4) = 2 → p + 7 < n))

theorem inspect16_touches (hp : p + 1 < n) : Touches (· < n) (inspect16 devdesc p) :=
  .note_bind (Nat.lt_of_succ_lt hp) (.note_bind hp (.pure _))

theorem endpointsFollow_touches (h1 : ep1 + 7 ≤ n) (h2 : ep2 + 7 ≤ n) :
    Touches (· < n) (endpointsFollow devdesc ep1 ep2) := by
  refine .note_bind (by omega) (.ite (fun _ => .pure _) fun _ => ?_)
  refine .note_bind (by omega) (.ite (fun _ => .pure _) fun _ => ?_)
  refine .note_bind (by omega) (.ite (fun _ => .pure _) fun _ => ?_)
  exact .note_bind (by omega) (.pure _)

theorem bothBulk_touches (h1 : ep1 + 7 ≤ n) (h2 : ep2 + 7 ≤ n) :
    Touches (· < n) (bothBulk devdesc ep1 ep2) := by
  refine .note_bind (by omega) (.ite (fun _ => .pure _) fun _ => ?_)
  exact .note_bind (by omega) (.pure _)

theorem registerDevice_touches (hn : 16 < n) (hi : interface + 7 < n) (h1 : ep1 + 7 ≤ n)
    (h2 : ep2 + 7 ≤ n) : Touches (· < n) (registerDevice devdesc interface ep1 ep2) := by
  refine .note_bind hi (.bind (.ite (fun _ => ?_) fun _ => .pure _) fun _ => ?_)
  · exact .bind (inspect16_touches (by omega)) fun _ => .pure _
  · refine .note_bind (by omega) (.note_bind (by omega) (.note_bind (by omega) ?_))
    exact .note_bind hn (.exit _)

theorem bulkEndpoints_touches (hn : 16 < n) (hi : interface + 7 < n) :
    Touches (· < n) (bulkEndpoints devdesc (some n) interface p) := by
  refine .ite (fun _ => .exit _) fun hend => ?_
  have hfit : p + 2 * 7 ≤ n := by
    simp only [USB_DT_ENDPOINT_SIZE, bufend] at hend
    omega
  have h1 : p + 7 ≤ n := by omega
  have h2 : p + USB_DT_ENDPOINT_SIZE + 7 ≤ n := by
    rw [USB_DT_ENDPOINT_SIZE]
    omega
  refine .bind (endpointsFollow_touches h1 h2) fun _ => .ite (fun _ => ?_) fun _ => .exit _
  refine .bind (bothBulk_touches h1 h2) fun _ => .ite (fun _ => ?_) fun _ => .pure _
  exact registerDevice_touches hn hi h1 h2

/-- One round looks at received bytes only exactly when its descriptor is whole. -/
theorem descriptor_touches_iff (hn : 16 < n) (hp : p < n) :
    Touches (· < n) (descriptor vendorIds devdesc (some n) vid p) ↔ Whole devdesc n p := by
  have hend : (p : ℤ) < bufend (some n) := by
    rw [bufend]
    omega
  rw [descriptor, if_pos hend]
  simp only [inspect, Touches.note_bind_iff, hp, true_and, Whole]
  refine and_congr_right fun hp1 => ?_
  by_cases htype : devdesc (p + 1) = USB_DT_INTERFACE
  · by_cases hsize : (devdesc p).toNat = USB_DT_INTERFACE_SIZE
    · simp only [htype, hsize, interfaceDescriptor, inspect, Touches.note_bind_iff, if_true,
        ne_eq, not_true_eq_false, if_false, true_implies]
      refine and_congr_right fun hp4 => ?_
      by_cases htwo : devdesc (p + 4) = 2
      · simp only [htwo, if_true, Touches.note_bind_iff, true_implies]
        refine ⟨fun h => h.2.2.1, fun h => ⟨by omega, by omega, h, ?_⟩⟩
        exact .ite (fun _ => bulkEndpoints_touches hn h) fun _ => .pure _
      · simp only [htwo, if_false, false_implies, iff_true]
        exact .pure _
    · simp only [htype, hsize, if_true, ne_eq, not_false_eq_true, false_implies, implies_true,
        iff_true]
      exact .exit _
  · simp only [htype, if_false, false_implies, iff_true]
    exact .pure _

theorem deviceAndConfig_touches (devdesc : Memory) (n : ℕ) :
    Touches (· < n) (deviceAndConfig devdesc (some n)) := by
  refine .ite (fun _ => .exit _) fun hlen => ?_
  have hn : 27 ≤ n := not_lt.mp hlen
  refine .note_bind (by omega) (.ite (fun _ => .exit _) fun _ => ?_)
  refine .note_bind (by omega) (.ite (fun _ => .exit _) fun _ => ?_)
  refine .bind (inspect16_touches (by omega)) fun _ => ?_
  refine .bind (inspect16_touches (by omega)) fun _ => ?_
  refine .note_bind (by rw [USB_DT_DEVICE_SIZE]; omega) (.ite (fun _ => .exit _) fun _ => ?_)
  refine .note_bind (by rw [USB_DT_DEVICE_SIZE]; omega) (.ite (fun _ => .exit _) fun _ => ?_)
  exact .pure _

theorem le_of_deviceAndConfig (h : (deviceAndConfig devdesc (some n)).result = .ok vid) :
    27 ≤ n := by
  rw [deviceAndConfig] at h
  split at h
  next => cases h
  next hlen => exact not_lt.mp hlen

theorem error_inspected (vendorIds : List ℕ) (devdesc : Memory) (k : ℕ) :
    0 ∈ (findUsbDevice vendorIds devdesc none k).trace := by
  have hlen : ¬desclength none < USB_DT_DEVICE_SIZE + USB_DT_CONFIG_SIZE := by decide
  have hfirst : 0 ∈ (deviceAndConfig devdesc none).trace := by
    rw [deviceAndConfig, if_neg hlen, inspect, trace_note_bind]
    exact mem_cons_self
  cases hstart : (deviceAndConfig devdesc none).result with
  | ok vid =>
    rw [findUsbDevice, bind_of_ok _ hstart]
    exact mem_append_left _ hfirst
  | error e =>
    rw [findUsbDevice, bind_of_error _ hstart]
    exact hfirst

def received : Count → ℕ
  | none => 0
  | some n => n

/-- Every byte that is inspected has been received exactly when the read has not failed and each
descriptor on the way of the loop is whole. -/
theorem descriptor_scan_in_bounds_iff (vendorIds : List ℕ) (devdesc : Memory) (count : Count) :
    (∀ k, ∀ i ∈ (findUsbDevice vendorIds devdesc count k).trace, i < received count) ↔
      ∃ n, count = some n ∧ ∀ p, Visits vendorIds devdesc count p → p < n → Whole devdesc n p := by
  cases count with
  | none =>
    constructor
    · intro h
      exact absurd (h 0 0 (error_inspected vendorIds devdesc 0)) (Nat.lt_irrefl 0)
    · rintro ⟨n, hn, -⟩
      cases hn
  | some n =>
    have hheader := deviceAndConfig_touches devdesc n
    cases hstart : (deviceAndConfig devdesc (some n)).result with
    | error e =>
      constructor
      · refine fun _ => ⟨n, rfl, ?_⟩
        rintro p ⟨vid, hvid, -⟩
        cases hstart.symm.trans hvid
      · intro _ k
        rw [findUsbDevice, bind_of_error _ hstart]
        exact hheader
    | ok vid =>
      have hloop : (∀ k, Touches (· < n) (findUsbDevice vendorIds devdesc (some n) k)) ↔
          ∀ p, Reaches (descriptor vendorIds devdesc (some n) vid) 27 p →
            Touches (· < n) (descriptor vendorIds devdesc (some n) vid p) := by
        simp only [findUsbDevice, Touches.bind_iff_of_ok hstart, hheader, true_and]
        exact loop_touches_iff _
      have hn : 16 < n := lt_of_lt_of_le (by decide) (le_of_deviceAndConfig hstart)
      refine hloop.trans ⟨fun h => ⟨n, rfl, ?_⟩, ?_⟩
      · rintro p ⟨vid', hvid', hreach⟩ hp
        cases ok.inj (hstart.symm.trans hvid')
        exact (descriptor_touches_iff hn hp).mp (h p hreach)
      · rintro ⟨n', hn', h⟩ p hreach
        cases Option.some.inj hn'
        by_cases hp : p < n
        · exact (descriptor_touches_iff hn hp).mpr (h p ⟨vid, hstart, hreach⟩ hp)
        · have hend : ¬(p : ℤ) < bufend (some n) := by
            rw [bufend]
            omega
          rw [descriptor, if_neg hend]
          exact .exit _

/-- One byte follows the configuration: the type behind it is looked at. -/
theorem descriptor_scan_beyond :
    28 ∈ (findUsbDevice [] (node [1]) (some 28) 1).trace ∧
      ¬∀ k, ∀ i ∈ (findUsbDevice [] (node [1]) (some 28) k).trace, i < received (some 28) := by
  have hmem : 28 ∈ (findUsbDevice [] (node [1]) (some 28) 1).trace := by decide
  exact ⟨hmem, fun h => absurd (h 1 28 hmem) (by decide)⟩

end Bounds

section Registered

variable {vendorIds : List ℕ} {devdesc : Memory} {count : Count} {vid n p : ℕ} {d : Device}

def End.callbacks : End → List Device
  | .nothing => []
  | .registered device => [device]

def IsEndpoint (devdesc : Memory) (ep : ℕ) : Prop :=
  (devdesc ep).toNat = USB_DT_ENDPOINT_SIZE ∧ devdesc (ep + 1) = USB_DT_ENDPOINT

def IsBulk (devdesc : Memory) (ep : ℕ) : Prop := devdesc (ep + 3) = USB_ENDPOINT_XFER_BULK

def endpointAddress (devdesc : Memory) (ep : ℕ) : Byte := devdesc (ep + 2)

def IsIn (address : Byte) : Prop := address &&& USB_ENDPOINT_DIR_MASK ≠ 0

instance : DecidablePred IsIn := fun _ => inferInstanceAs (Decidable (_ ≠ _))

def word16 (devdesc : Memory) (i : ℕ) : ℕ := (devdesc i).toNat + 256 * (devdesc (i + 1)).toNat

/-- Among the first `n` bytes there is an ADB interface at `p` with two bulk endpoints behind it. -/
structure AdbInterface (vendorIds : List ℕ) (devdesc : Memory) (n p : ℕ) : Prop where
  received : p + 23 ≤ n
  type : devdesc (p + 1) = USB_DT_INTERFACE
  length : (devdesc p).toNat = USB_DT_INTERFACE_SIZE
  endpoints : devdesc (p + 4) = 2
  usbClass : devdesc (p + 5) = ADB_CLASS
  usbSubclass : devdesc (p + 6) = ADB_SUBCLASS
  usbProtocol : devdesc (p + 7) = ADB_PROTOCOL
  vendor : word16 devdesc 8 ∈ vendorIds
  endpoint1 : IsEndpoint devdesc (p + 9)
  endpoint2 : IsEndpoint devdesc (p + 16)
  bulk1 : IsBulk devdesc (p + 9)
  bulk2 : IsBulk devdesc (p + 16)

/-- `zero_mask` is an `unsigned`. -/
def zeroMaskOf (wMaxPacketSize : ℕ) : ℕ := (wMaxPacketSize + 2 ^ 32 - 1) % 2 ^ 32

def deviceAt (devdesc : Memory) (p : ℕ) : Device where
  epIn := endpointAddress devdesc (if IsIn (endpointAddress devdesc (p + 9)) then p + 9 else p + 16)
  epOut :=
    endpointAddress devdesc (if IsIn (endpointAddress devdesc (p + 9)) then p + 16 else p + 9)
  ifc := devdesc (p + 2)
  serialIndex := devdesc 16
  zeroMask := zeroMaskOf (word16 devdesc (p + 13))

/-- The device was found in the first `n` bytes, and each of its endpoints has its direction. -/
def Genuine (vendorIds : List ℕ) (devdesc : Memory) (n : ℕ) (d : Device) : Prop :=
  ∃ p, AdbInterface vendorIds devdesc n p ∧
    d.zeroMask = zeroMaskOf (word16 devdesc (p + 13)) ∧
    ∃ epIn epOut, (epIn = p + 9 ∧ epOut = p + 16 ∨ epIn = p + 16 ∧ epOut = p + 9) ∧
      d.epIn = endpointAddress devdesc epIn ∧ IsIn d.epIn ∧
      d.epOut = endpointAddress devdesc epOut ∧ ¬IsIn d.epOut

/-- One of the endpoints of the interface at `p` is to the host and the other one is not. -/
def TwoWay (devdesc : Memory) (p : ℕ) : Prop :=
  IsIn (endpointAddress devdesc (p + 9)) ↔ ¬IsIn (endpointAddress devdesc (p + 16))

theorem endpointsFollow_result (devdesc : Memory) (ep1 ep2 : ℕ) :
    ∃ b, (endpointsFollow devdesc ep1 ep2).result = .ok b ∧
      (b = true ↔ IsEndpoint devdesc ep1 ∧ IsEndpoint devdesc ep2) := by
  simp only [endpointsFollow, inspect, result_note_bind, IsEndpoint]
  split
  next h => exact ⟨false, rfl, by simp [h]⟩
  next h1 =>
    simp only [result_note_bind]
    split
    next h => exact ⟨false, rfl, by simp [h]⟩
    next h2 =>
      simp only [result_note_bind]
      split
      next h => exact ⟨false, rfl, by simp [h]⟩
      next h3 =>
        rw [not_not] at h1 h2 h3
        exact ⟨_, rfl, by simp [h1, h2, h3]⟩

theorem bothBulk_result (devdesc : Memory) (ep1 ep2 : ℕ) :
    ∃ b, (bothBulk devdesc ep1 ep2).result = .ok b ∧
      (b = true ↔ IsBulk devdesc ep1 ∧ IsBulk devdesc ep2) := by
  simp only [bothBulk, inspect, result_note_bind, IsBulk]
  split
  next h => exact ⟨false, rfl, by simp [h]⟩
  next h =>
    rw [not_not] at h
    exact ⟨_, rfl, by simp [h]⟩

theorem inspect16_result (i : ℕ) : (inspect16 devdesc i).result = .ok (word16 devdesc i) := rfl

theorem registerDevice_result (h : devdesc (p + 7) = ADB_PROTOCOL) :
    (registerDevice devdesc p (p + 9) (p + 16)).result =
      .error (.registered (deviceAt devdesc p)) := by
  have hone : devdesc (p + 7) = 0x01 := h
  have hmask : (inspect16 devdesc (p + 9 + 4) >>= fun wMaxPacketSize =>
      (pure ((wMaxPacketSize + 2 ^ 32 - 1) % 2 ^ 32) : Scan ℕ)).result =
      .ok (zeroMaskOf (word16 devdesc (p + 13))) := rfl
  simp only [registerDevice, inspect, result_note_bind, hone, if_true]
  rw [bind_of_ok _ hmask]
  simp only [result_note_bind, result_exit, deviceAt, endpointAddress, IsIn]
  split
  next hin => simp [hin]
  next hin => simp [hin]

theorem le_bufend_iff {m : ℕ} (hm : 0 < m) : (m : ℤ) ≤ bufend count ↔ m ≤ received count := by
  cases count with
  | none | some =>
    simp only [bufend, received]
    omega

/-- The endpoints behind an interface are registered if they are for bulk transfers. -/
theorem bulkEndpoints_registered_iff (h : devdesc (p + 7) = ADB_PROTOCOL) :
    (bulkEndpoints devdesc count p (p + 9)).result = .error (.registered d) ↔
      p + 23 ≤ received count ∧ (IsEndpoint devdesc (p + 9) ∧ IsEndpoint devdesc (p + 16)) ∧
        (IsBulk devdesc (p + 9) ∧ IsBulk devdesc (p + 16)) ∧ deviceAt devdesc p = d := by
  obtain ⟨follow, hfollow, hfollow'⟩ := endpointsFollow_result devdesc (p + 9) (p + 16)
  obtain ⟨bulk, hbulk, hbulk'⟩ := bothBulk_result devdesc (p + 9) (p + 16)
  have hend : ((p + 9 + 2 * USB_DT_ENDPOINT_SIZE : ℕ) : ℤ) > bufend count ↔
      ¬p + 23 ≤ received count := by
    rw [← le_bufend_iff (Nat.succ_pos _), USB_DT_ENDPOINT_SIZE]
    omega
  rw [← hfollow', ← hbulk', bulkEndpoints]
  by_cases hfit : p + 23 ≤ received count
  · rw [if_neg fun hgt => hend.mp hgt hfit]
    change (endpointsFollow devdesc (p + 9) (p + 16) >>= _).result = _ ↔ _
    rw [bind_of_ok _ hfollow]
    cases follow with
    | false => simp
    | true =>
      change (bothBulk devdesc (p + 9) (p + 16) >>= _).result = _ ↔ _
      rw [bind_of_ok _ hbulk]
      cases bulk with
      | false => simp
      | true => simp [hfit, registerDevice_result h, USB_DT_ENDPOINT_SIZE]
  · rw [if_pos (hend.mpr hfit)]
    simp [hfit]

/-- One round registers a device exactly at an ADB interface. -/
theorem descriptor_registered_iff (hvid : vid = word16 devdesc 8) :
    (descriptor vendorIds devdesc count vid p).result = .error (.registered d) ↔
      AdbInterface vendorIds devdesc (received count) p ∧ deviceAt devdesc p = d := by
  constructor
  · intro h
    rw [descriptor] at h
    split at h
    next =>
      simp only [inspect, result_note_bind] at h
      split at h
      next htype =>
        split at h
        next => cases h
        next hlen =>
          rw [not_not] at hlen
          simp only [interfaceDescriptor, inspect, result_note_bind] at h
          split at h
          next htwo =>
            simp only [result_note_bind] at h
            split at h
            next hadb =>
              simp only [isAdbInterface, decide_eq_true_eq] at hadb
              obtain ⟨hvendor, hclass, hsubclass, hprotocol⟩ := hadb
              rw [hlen] at h
              obtain ⟨hrec, hep, hbulk, hd⟩ := (bulkEndpoints_registered_iff hprotocol).mp h
              exact ⟨⟨hrec, htype, hlen, htwo, hclass, hsubclass, hprotocol, hvid ▸ hvendor,
                hep.1, hep.2, hbulk.1, hbulk.2⟩, hd⟩
            next => cases h
          next => cases h
      next => cases h
    next => cases h
  · rintro ⟨h, hd⟩
    have hp : (p : ℤ) < bufend count := by
      have hrec := (le_bufend_iff (Nat.succ_pos _)).mpr h.received
      omega
    have hadb : isAdbInterface vendorIds vid (devdesc (p + 5)) (devdesc (p + 6))
        (devdesc (p + 7)) = true := by
      simp only [isAdbInterface, decide_eq_true_eq]
      exact ⟨hvid ▸ h.vendor, h.usbClass, h.usbSubclass, h.usbProtocol⟩
    have hbulk := (bulkEndpoints_registered_iff h.usbProtocol).mpr
      ⟨h.received, ⟨h.endpoint1, h.endpoint2⟩, ⟨h.bulk1, h.bulk2⟩, hd⟩
    rw [descriptor, if_pos hp]
    simp only [inspect, result_note_bind, h.type, if_true, h.length, ne_eq, not_true_eq_false,
      if_false, interfaceDescriptor, h.endpoints, hadb]
    exact hbulk

theorem deviceAndConfig_result (devdesc : Memory) (count : Count) :
    (deviceAndConfig devdesc count).result = .error .nothing ∨
      (deviceAndConfig devdesc count).result = .ok (word16 devdesc 8) := by
  rw [deviceAndConfig]
  split
  next => exact .inl rfl
  next =>
    simp only [inspect, result_note_bind]
    split
    next => exact .inl rfl
    next =>
      simp only [result_note_bind]
      split
      next => exact .inl rfl
      next =>
        rw [bind_of_ok _ (inspect16_result 8)]
        simp only [bind_of_ok _ (inspect16_result 10), result_note_bind]
        split
        next => exact .inl rfl
        next =>
          simp only [result_note_bind]
          split
          next => exact .inl rfl
          next => exact .inr rfl

/-- What is registered is a device that the scan has come to. -/
theorem findUsbDevice_registered_iff :
    (∃ k, (findUsbDevice vendorIds devdesc count k).result = .error (.registered d)) ↔
      ∃ p, Visits vendorIds devdesc count p ∧
        AdbInterface vendorIds devdesc (received count) p ∧ deviceAt devdesc p = d := by
  rcases deviceAndConfig_result devdesc count with hstart | hstart
  · simp only [findUsbDevice, bind_of_error _ hstart]
    constructor
    · rintro ⟨k, hk⟩
      cases hk
    · rintro ⟨p, ⟨vid, hvid, -⟩, -⟩
      cases hstart.symm.trans hvid
  · simp only [findUsbDevice, bind_of_ok _ hstart]
    rw [loop_error_iff]
    simp only [descriptor_registered_iff rfl]
    constructor
    · rintro ⟨p, hreach, hp⟩
      exact ⟨p, ⟨_, hstart, hreach⟩, hp⟩
    · rintro ⟨p, ⟨vid, hvid, hreach⟩, hp⟩
      cases ok.inj (hstart.symm.trans hvid)
      exact ⟨p, hreach, hp⟩

theorem genuine_iff (h : AdbInterface vendorIds devdesc n p) :
    Genuine vendorIds devdesc n (deviceAt devdesc p) ↔ TwoWay devdesc p := by
  constructor
  · rintro ⟨-, -, -, -, -, -, -, hin, -, hout⟩
    rw [deviceAt] at hin hout
    dsimp only at hin hout
    by_cases hfirst : IsIn (endpointAddress devdesc (p + 9))
    · rw [if_pos hfirst] at hin hout
      exact iff_of_true hfirst hout
    · rw [if_neg hfirst] at hin hout
      exact iff_of_false hfirst (not_not.mpr hin)
  · intro htwo
    by_cases hfirst : IsIn (endpointAddress devdesc (p + 9))
    · refine ⟨p, h, rfl, p + 9, p + 16, .inl ⟨rfl, rfl⟩, ?_⟩
      simp only [deviceAt, if_pos hfirst, true_and]
      exact ⟨hfirst, htwo.mp hfirst⟩
    · refine ⟨p, h, rfl, p + 16, p + 9, .inr ⟨rfl, rfl⟩, ?_⟩
      simp only [deviceAt, if_neg hfirst, true_and]
      exact ⟨not_not.mp (mt htwo.mpr hfirst), hfirst⟩

/-- A scan that ends has registered a device at most once, and a genuine one exactly when the ADB
interface it came to has an endpoint for each direction. -/
theorem registers_genuine_iff (vendorIds : List ℕ) (devdesc : Memory) (count : Count) :
    (∀ k e, (findUsbDevice vendorIds devdesc count k).result = .error e →
      e.callbacks.length ≤ 1 ∧
        ∀ d ∈ e.callbacks, Genuine vendorIds devdesc (received count) d) ↔
      ∀ p, Visits vendorIds devdesc count p →
        AdbInterface vendorIds devdesc (received count) p → TwoWay devdesc p := by
  constructor
  · intro h p hvisit hp
    obtain ⟨k, hk⟩ := findUsbDevice_registered_iff.mpr ⟨p, hvisit, hp, rfl⟩
    exact (genuine_iff hp).mp ((h k _ hk).2 _ mem_cons_self)
  · intro h k e hk
    cases e with
    | nothing => exact ⟨Nat.zero_le 1, nofun⟩
    | registered d =>
      refine ⟨le_rfl, fun d' hd' => ?_⟩
      cases mem_singleton.mp hd'
      obtain ⟨p, hvisit, hp, rfl⟩ := findUsbDevice_registered_iff.mp ⟨k, hk⟩
      exact (genuine_iff hp).mpr (h p hvisit hp)

def terminal (address1 address2 : Byte) : Memory := fun i =>
  ([18, 1, 0, 2, 0, 0, 0, 64, 0xb8, 0x2f, 0x1c, 0x21, 0, 1, 1, 2, 3, 1] ++
    [9, 2, 32, 0, 1, 1, 0, 0x80, 250] ++ [9, 4, 0, 0, 2, 0xff, 0x42, 1, 0] ++
    [7, 5, address1, 2, 0, 2, 0] ++ [7, 5, address2, 2, 0, 2, 0]).getD i 0

/-- The endpoint for what is written to the device is one that is read from. -/
theorem registers_two_inputs :
    (findUsbDevice [0x2fb8] (terminal 0x81 0x82) (some 50) 1).result =
        .error (.registered ⟨0x81, 0x82, 0, 3, 511⟩) ∧
      ¬∀ k e, (findUsbDevice [0x2fb8] (terminal 0x81 0x82) (some 50) k).result = .error e →
        e.callbacks.length ≤ 1 ∧
          ∀ d ∈ e.callbacks, Genuine [0x2fb8] (terminal 0x81 0x82) (received (some 50)) d := by
  have hscan : (findUsbDevice [0x2fb8] (terminal 0x81 0x82) (some 50) 1).result =
      .error (.registered ⟨0x81, 0x82, 0, 3, 511⟩) := by decide +kernel
  refine ⟨hscan, fun h => ?_⟩
  obtain ⟨-, -, -, -, -, -, -, -, -, hout⟩ := (h 1 _ hscan).2 _ mem_cons_self
  exact hout (by decide)

end Registered

end PaxAdb.Usb
