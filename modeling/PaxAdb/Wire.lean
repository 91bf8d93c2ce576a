import PaxAdb.LittleEndian
import PaxAdb.ExactTransfer
import PaxAdb.Sockets

/-!
# Packets on the wire

A packet is sent as its header of six words and `data_length` bytes of payload. `send_packet` fills
in the checksum and the magic word, the TCP `remote_write` writes both parts in one go, and
`remote_read` reads them back and checks what `send_packet` has filled in.
-/

namespace PaxAdb.Wire

open LittleEndian List

export Sockets (MAX_PAYLOAD)

structure AMessage where
  command : UInt32
  arg0 : UInt32
  arg1 : UInt32
  dataLength : UInt32
  dataCheck : UInt32
  magic : UInt32
  deriving DecidableEq, Repr

/-- An `apacket`; `data` is the part of the payload array that is in use. -/
structure APacket where
  msg : AMessage
  data : List Byte
  deriving DecidableEq, Repr

namespace AMessage

def words (m : AMessage) : List UInt32 :=
  [m.command, m.arg0, m.arg1, m.dataLength, m.dataCheck, m.magic]

def ofWords : List UInt32 → AMessage
  | [command, arg0, arg1, dataLength, dataCheck, magic] =>
      ⟨command, arg0, arg1, dataLength, dataCheck, magic⟩
  | _ => ⟨0, 0, 0, 0, 0, 0⟩

/-- `sizeof(amessage)` -/
def size : ℕ := 24

def encode (m : AMessage) : List Byte := encodeWords m.words

def decode (bytes : List Byte) : AMessage := ofWords (decodeWords bytes)

end AMessage

def checksum (data : List Byte) : UInt32 := data.foldl (fun sum x => sum + x.toUInt32) 0

def sendPacket (p : APacket) : APacket :=
  { p with msg := { p.msg with
      magic := p.msg.command ^^^ 0xffffffff
      dataCheck := checksum (p.data.take p.msg.dataLength.toNat) } }

/-- `check_header` returns 0. -/
def checkHeader (m : AMessage) : Bool :=
  m.magic = m.command ^^^ 0xffffffff && m.dataLength.toNat ≤ MAX_PAYLOAD

/-- `check_data` returns 0. -/
def checkData (p : APacket) : Bool :=
  checksum (p.data.take p.msg.dataLength.toNat) = p.msg.dataCheck

/-- The header and the payload as they follow each other in memory. -/
def APacket.encode (p : APacket) : List Byte :=
  p.msg.encode ++ p.data.take p.msg.dataLength.toNat

def remoteWrite (p : APacket) (results : List WriteResult) : Written (List WriteResult) :=
  writex p.encode results

/-- `none` stands for -1. -/
def remoteRead (arrivals : List ReadResult) : Option (APacket × List ReadResult) := do
  let (header, arrivals) ← readx AMessage.size arrivals
  let msg := AMessage.decode header
  if checkHeader msg then
    let (data, arrivals) ← readx msg.dataLength.toNat arrivals
    if checkData ⟨msg, data⟩ then return (⟨msg, data⟩, arrivals) else none
  else none

def remoteWrites : List APacket → List WriteResult → Written (List WriteResult)
  | [], results => ⟨[], true, results⟩
  | p :: ps, results => (remoteWrite p results).andThen (remoteWrites ps)

def remoteReads : ℕ → List ReadResult → Option (List APacket × List ReadResult)
  | 0, arrivals => some ([], arrivals)
  | n + 1, arrivals => do
      let (p, arrivals) ← remoteRead arrivals
      let (ps, arrivals) ← remoteReads n arrivals
      return (p :: ps, arrivals)

/-- The header tells the length of the payload, and the payload is not too long. -/
structure APacket.Fits (p : APacket) : Prop where
  length : p.data.length = p.msg.dataLength.toNat
  bound : p.msg.dataLength.toNat ≤ MAX_PAYLOAD

def APacket.content (p : APacket) : UInt32 × UInt32 × UInt32 × List Byte :=
  (p.msg.command, p.msg.arg0, p.msg.arg1, p.data)

section Header

theorem AMessage.decode_encode (m : AMessage) : decode m.encode = m := by
  rw [decode, encode, decodeWords_encodeWords]
  rfl

@[simp] theorem AMessage.length_encode (m : AMessage) : m.encode.length = size :=
  length_encodeWords _

theorem AMessage.encode_decode (bytes : List Byte) (h : bytes.length = size) :
    (decode bytes).encode = bytes := by
  have hwords := length_decodeWords 6 bytes h
  match hw : decodeWords bytes, hwords with
  | [command, arg0, arg1, dataLength, dataCheck, magic], _ =>
    have henc := encodeWords_decodeWords 6 bytes h
    rw [hw] at henc
    rw [decode, hw]
    exact henc

theorem checksum_toNat (data : List Byte) :
    (checksum data).toNat = (data.map UInt8.toNat).sum % 2 ^ 32 := by
  have hfold : ∀ sum : UInt32, (data.foldl (fun sum x => sum + x.toUInt32) sum).toNat =
      (sum.toNat + (data.map UInt8.toNat).sum) % 2 ^ 32 := by
    induction data with
    | nil =>
      intro sum
      have := sum.toNat_lt
      simp only [foldl_nil, map_nil, sum_nil]
      omega
    | cons x data ih =>
      intro sum
      simp only [foldl_cons, map_cons, sum_cons, ih, UInt32.toNat_add, UInt8.toNat_toUInt32]
      omega
  have h0 := hfold 0
  rwa [UInt32.toNat_zero, Nat.zero_add] at h0

end Header

section RoundTrip

variable {p : APacket} {arrivals rest : List ReadResult}

theorem APacket.Fits.take (h : p.Fits) : p.data.take p.msg.dataLength.toNat = p.data :=
  take_of_length_le h.length.le

theorem checkHeader_sendPacket (h : p.Fits) : checkHeader (sendPacket p).msg = true := by
  simp only [checkHeader, sendPacket, decide_true, Bool.true_and]
  exact decide_eq_true h.bound

/-- What was completed and written is read back, and what follows it is left. -/
theorem remoteRead_encode (h : p.Fits) (tail : List Byte) (hund : Undisturbed arrivals)
    (harr : arrived arrivals = (sendPacket p).encode ++ tail) :
    ∃ rest, remoteRead arrivals = some (sendPacket p, rest) ∧ Undisturbed rest ∧
      arrived rest = tail := by
  have hdata : (sendPacket p).data.take (sendPacket p).msg.dataLength.toNat = p.data := h.take
  rw [APacket.encode, hdata, append_assoc] at harr
  obtain ⟨rest, hheader, hund, harr⟩ := readx_undisturbed _ _ hund harr
  obtain ⟨rest', hpayload, hund, harr⟩ := readx_undisturbed _ _ hund harr
  rw [AMessage.length_encode] at hheader
  rw [h.length] at hpayload
  have hlen : (sendPacket p).msg.dataLength = p.msg.dataLength := rfl
  have hcheck : checkData ⟨(sendPacket p).msg, p.data⟩ = true := by
    simp only [checkData, sendPacket, decide_eq_true_eq]
  refine ⟨rest', ?_, hund, harr⟩
  simp only [remoteRead, hheader, Option.bind_eq_bind, Option.bind_some, AMessage.decode_encode,
    checkHeader_sendPacket h, if_true, hlen, hpayload, hcheck, pure]
  rfl

theorem remoteWrites_bytes (ps : List APacket) (results : List WriteResult)
    (h : (remoteWrites ps results).ok = true) :
    (remoteWrites ps results).bytes = ps.flatMap APacket.encode := by
  induction ps generalizing results with
  | nil => rfl
  | cons p ps ih =>
    simp only [remoteWrites, Written.andThen] at h ⊢
    by_cases hok : (remoteWrite p results).ok = true
    · simp only [hok, if_true] at h ⊢
      rw [ih _ h, flatMap_cons, remoteWrite, (writex_ok_iff _ _).mp hok]
    · simp only [hok, Bool.false_eq_true, if_false] at h

theorem remoteWrites_patient (ps : List APacket) (results : List WriteResult)
    (h : Patient results) (hlen : (ps.flatMap APacket.encode).length ≤ accepting results) :
    (remoteWrites ps results).ok = true := by
  induction ps generalizing results with
  | nil => rfl
  | cons p ps ih =>
    rw [flatMap_cons, length_append] at hlen
    obtain ⟨hok, hpat, hle⟩ := writex_patient p.encode results h (by omega)
    have hok' : (remoteWrite p results).ok = true := hok
    simp only [remoteWrites, Written.andThen, hok', if_true]
    refine ih _ hpat ?_
    change _ ≤ accepting (writex p.encode results).rest
    omega

theorem remoteReads_encode (ps : List APacket) (hfits : ∀ p ∈ ps, p.Fits) (tail : List Byte)
    (hund : Undisturbed arrivals)
    (harr : arrived arrivals = (ps.map sendPacket).flatMap APacket.encode ++ tail) :
    ∃ rest, remoteReads ps.length arrivals = some (ps.map sendPacket, rest) ∧
      arrived rest = tail := by
  induction ps generalizing arrivals with
  | nil => exact ⟨arrivals, rfl, harr⟩
  | cons p ps ih =>
    rw [map_cons, flatMap_cons, append_assoc] at harr
    obtain ⟨left, hread, hund, harr⟩ :=
      remoteRead_encode (hfits p mem_cons_self) _ hund harr
    obtain ⟨rest, hreads, htail⟩ :=
      ih (fun q hq => hfits q (mem_cons_of_mem _ hq)) hund harr
    refine ⟨rest, ?_, htail⟩
    simp only [length_cons, remoteReads, hread, hreads, Option.bind_eq_bind,
      Option.bind_some, pure, map_cons]

theorem remoteRead_some (h : remoteRead arrivals = some (p, rest)) :
    arrived arrivals = p.msg.encode ++ p.data ++ arrived rest ∧
      p.msg.magic = p.msg.command ^^^ 0xffffffff ∧ p.Fits ∧ p.msg.dataCheck = checksum p.data := by
  obtain ⟨⟨header, left⟩, hheader, h⟩ := Option.bind_eq_some_iff.mp h
  dsimp only at h
  split_ifs at h with hcheck
  obtain ⟨⟨data, left'⟩, hdata, h⟩ := Option.bind_eq_some_iff.mp h
  dsimp only at h
  split_ifs at h with hsum
  cases h
  obtain ⟨hlen, harr⟩ := readx_some _ _ hheader
  obtain ⟨hlen', harr'⟩ := readx_some _ _ hdata
  simp only [checkHeader, Bool.and_eq_true, decide_eq_true_eq] at hcheck
  have hfits : (⟨AMessage.decode header, data⟩ : APacket).Fits := ⟨hlen', hcheck.2⟩
  have hdata : data.take (AMessage.decode header).dataLength.toNat = data := hfits.take
  refine ⟨?_, hcheck.1, hfits, ?_⟩
  · rw [harr, harr', AMessage.encode_decode header hlen, append_assoc]
  · simp only [checkData, hdata, decide_eq_true_eq] at hsum
    exact hsum.symm

end RoundTrip

/-- Packets that are completed, written and read back are the packets that were sent, however the
bytes are cut into pieces on either side; and whatever `remote_read` accepts is a packet. -/
theorem wire_round_trip :
    (∀ (ps : List APacket) (results : List WriteResult) (arrivals : List ReadResult)
        (tail : List Byte), (∀ p ∈ ps, p.Fits) →
      (remoteWrites (ps.map sendPacket) results).ok = true → Undisturbed arrivals →
      arrived arrivals = (remoteWrites (ps.map sendPacket) results).bytes ++ tail →
      ∃ qs rest, remoteReads ps.length arrivals = some (qs, rest) ∧
        qs.map APacket.content = ps.map APacket.content ∧ arrived rest = tail) ∧
    (∀ (ps : List APacket) (results : List WriteResult), Patient results →
      ((ps.map sendPacket).flatMap APacket.encode).length ≤ accepting results →
      (remoteWrites (ps.map sendPacket) results).ok = true) ∧
    ∀ (arrivals rest : List ReadResult) (p : APacket), remoteRead arrivals = some (p, rest) →
      ∃ header, header.length = 24 ∧ header = p.msg.encode ∧
        arrived arrivals = header ++ p.data ++ arrived rest ∧
        p.msg.magic = p.msg.command ^^^ 0xffffffff ∧ p.data.length = p.msg.dataLength.toNat ∧
        p.msg.dataLength.toNat ≤ 4096 ∧
        p.msg.dataCheck.toNat = (p.data.map UInt8.toNat).sum % 2 ^ 32 := by
  refine ⟨fun ps results arrivals tail hfits hok hund harr => ?_, fun ps results hpat hlen =>
    remoteWrites_patient _ results hpat hlen, fun arrivals rest p h => ?_⟩
  · rw [remoteWrites_bytes _ _ hok] at harr
    obtain ⟨rest, hreads, htail⟩ := remoteReads_encode ps hfits tail hund harr
    refine ⟨_, rest, hreads, ?_, htail⟩
    rw [map_map]
    rfl
  · obtain ⟨harr, hmagic, hfits, hsum⟩ := remoteRead_some h
    refine ⟨_, AMessage.length_encode p.msg, rfl, harr, hmagic, hfits.length, hfits.bound, ?_⟩
    rw [hsum, checksum_toNat]

def samplePacket : APacket := ⟨⟨0x4b534448, 1, 0, 2, 0, 0⟩, [7, 255]⟩

/-- The header is cut inside a word on the way out and once more on the way in. -/
theorem wire_round_trip_short :
    ∃ qs rest, remoteReads 1 [.data ((sendPacket samplePacket).encode.take 10), .eintr,
        .data ((sendPacket samplePacket).encode.drop 10 ++ [1])] = some (qs, rest) ∧
      qs.map APacket.content = [samplePacket.content] ∧ arrived rest = [1] := by
  have hok : (remoteWrites ([samplePacket].map sendPacket)
      [.count 4, .eagain, .count 0, .eintr, .count 99]).ok = true := by decide +kernel
  refine wire_round_trip.1 [samplePacket] _ _ [1] ?_ hok ?_ ?_
  · intro p hp
    cases mem_singleton.mp hp
    exact ⟨by decide +kernel, by decide +kernel⟩
  · intro r hr
    simp only [mem_cons, not_mem_nil, or_false] at hr
    rcases hr with rfl | rfl | rfl
    · exact Or.inr ⟨_, _, rfl⟩
    · exact Or.inl rfl
    · exact Or.inr ⟨_, _, rfl⟩
  · rw [remoteWrites_bytes _ _ hok]
    decide +kernel

end PaxAdb.Wire
