import PaxAdb.ClientStatus
import PaxAdb.Traced

/-!
# Serving a file in blocks

`adb_sideload_host` sends the blocks of a file that the device asks for by their numbers. The
offset of a block is computed as an `int` and then taken for a `size_t`, so the number of a block
far behind the end of the file may stand for one that is in it.
-/

namespace PaxAdb.Sideload

open Sockets (text)
open Client (Connection)
open Traced Decimal

section Model

def SIDELOAD_HOST_BLOCK_SIZE : ℕ := 64 * 1024

/-- The program notes what each `writex` puts on the wire and leaves with the status it returns. -/
abbrev Session := Traced (List Byte) ℤ

/-- The product wraps around as an `int` and is extended to a `size_t` with its sign. -/
def blockOffset (block : ℤ) : ℕ :=
  ((block * SIDELOAD_HOST_BLOCK_SIZE).bmod (2 ^ 32) % 2 ^ 64).toNat

def send (bytes : List Byte) (c : Connection) : Session Connection :=
  let w := writex bytes c.writes
  note w.bytes w.ok >>= fun ok => if ok then pure { c with writes := w.rest } else exit (-1)

def serveRequest (data : List Byte) (c : Connection) : Session Connection :=
  match readx 8 c.reads with
  | none => exit (-1)
  | some (buf, reads) =>
      if buf = text "DONEDONE" then exit 0
      else
        let offset := blockOffset (atoi buf)
        if data.length ≤ offset then exit (-1)
        else
          let toWrite :=
            if offset + SIDELOAD_HOST_BLOCK_SIZE > data.length then data.length - offset
            else SIDELOAD_HOST_BLOCK_SIZE
          send ((data.drop offset).take toWrite) { c with reads := reads }

def downloadLoop : ℕ → List Byte → Connection → Session Connection
  | 0, _, c => pure c
  | _ + 1, [], c => pure c
  | fuel + 1, data, c =>
      send (data.take SIDELOAD_HOST_BLOCK_SIZE) c >>=
        downloadLoop fuel (data.drop SIDELOAD_HOST_BLOCK_SIZE)

variable (adbConnect : List Byte → Option Connection)

def adbDownloadBuffer (service data : List Byte) : Session Connection :=
  match adbConnect (service ++ text ":" ++ decimal data.length) with
  | none => exit (-1)
  | some c =>
      downloadLoop data.length data c >>= fun c =>
        match readx 4 c.reads with
        | none => exit (-1)
        | some (buf, _) => exit (if buf = text "OKAY" then 0 else -1)

def sideloadService (size : ℕ) : List Byte :=
  text "sideload-host:" ++ decimal size ++ text ":" ++
    decimal SIDELOAD_HOST_BLOCK_SIZE

/-- `adb_sideload_host` on a file, for at most `k` requests. An older device gets all of it. -/
def adbSideloadHost (file : Option (List Byte)) (k : ℕ) : Session Connection :=
  match file with
  | none => exit (-1)
  | some data =>
      match adbConnect (sideloadService data.length) with
      | none => adbDownloadBuffer adbConnect (text "sideload") data
      | some c => loop (serveRequest data) k c

end Model

section Blocks

variable {data : List Byte} {c : Connection} {B : ℕ} {rest : List ReadResult}

def Request (c : Connection) (B : ℕ) (rest : List ReadResult) : Prop :=
  ∃ buf, readx 8 c.reads = some (buf, rest) ∧ (∀ ch ∈ buf, isDigit ch = true) ∧
    value buf = B

def block (data : List Byte) (B : ℕ) : List Byte :=
  (data.take (min ((B + 1) * 65536) data.length)).drop (B * 65536)

/-- The block is in the file, or its offset stays behind the end of the file as an `int`. -/
def Addressed (size B : ℕ) : Prop := B * 65536 < size ∨ size ≤ B * 65536 % 2 ^ 32

theorem blockOffset_lt_iff {size : ℕ} (hsize : size < 2 ^ 31) :
    blockOffset B < size ↔ B * 65536 % 2 ^ 32 < size := by
  rw [blockOffset, SIDELOAD_HOST_BLOCK_SIZE, Int.bmod_def]
  split <;> omega

theorem blockOffset_eq {size : ℕ} (hsize : size < 2 ^ 31) (h : blockOffset B < size) :
    blockOffset B = B * 65536 % 2 ^ 32 := by
  rw [blockOffset_lt_iff hsize] at h
  rw [blockOffset, SIDELOAD_HOST_BLOCK_SIZE, Int.bmod_def]
  split <;> omega

theorem atoi_digits {buf : List Byte} (hlen : buf.length = 8)
    (h : ∀ ch ∈ buf, isDigit ch = true) : atoi buf = value buf := by
  have hlt := value_lt h
  rw [hlen] at hlt
  rw [atoi_of_digits h]
  exact toInt_eq (by omega) (by omega)

theorem block_eq (data : List Byte) (B : ℕ) :
    block data B = (data.drop (B * 65536)).take
      (if B * 65536 + SIDELOAD_HOST_BLOCK_SIZE > data.length then data.length - B * 65536
        else SIDELOAD_HOST_BLOCK_SIZE) := by
  rw [block, List.drop_take, SIDELOAD_HOST_BLOCK_SIZE]
  congr 1
  split <;> omega

section Served

variable (hsize : data.length < 2 ^ 31) (h : Request c B rest)

include hsize h

omit hsize in
theorem serveRequest_request : serveRequest data c = if data.length ≤ blockOffset B then exit (-1)
      else send ((data.drop (blockOffset B)).take
        (if blockOffset B + SIDELOAD_HOST_BLOCK_SIZE > data.length then data.length - blockOffset B
          else SIDELOAD_HOST_BLOCK_SIZE)) { c with reads := rest } := by
  obtain ⟨buf, hread, hdigits, rfl⟩ := h
  have hlen : buf.length = 8 := (readx_some 8 _ hread).1
  have hdone : buf ≠ text "DONEDONE" := by
    rintro rfl
    exact absurd (hdigits 0x44 (by decide)) (by decide)
  rw [serveRequest, hread]
  dsimp only
  rw [if_neg hdone, atoi_digits hlen hdigits]

theorem serveRequest_block (hB : B * 65536 < data.length) :
    serveRequest data c = send (block data B) { c with reads := rest } := by
  have hlt : blockOffset B < data.length := (blockOffset_lt_iff hsize).mpr (by omega)
  have heq : blockOffset B = B * 65536 := by
    rw [blockOffset_eq hsize hlt]
    omega
  rw [serveRequest_request h, if_neg (not_le.mpr hlt), heq, block_eq]

theorem serveRequest_refused
    (hB : data.length ≤ B * 65536 % 2 ^ 32) : serveRequest data c = exit (-1) := by
  have hle : data.length ≤ blockOffset B :=
    not_lt.mp fun hlt => absurd ((blockOffset_lt_iff hsize).mp hlt) (not_lt.mpr hB)
  rw [serveRequest_request h, if_pos hle]

theorem serveRequest_wraps (hB : B * 65536 % 2 ^ 32 < data.length) :
    ∃ bytes, serveRequest data c = send bytes { c with reads := rest } := by
  have hlt : blockOffset B < data.length := (blockOffset_lt_iff hsize).mpr hB
  rw [serveRequest_request h, if_neg (not_le.mpr hlt)]
  exact ⟨_, rfl⟩

end Served

end Blocks

section Sending

variable {c : Connection}

theorem send_trace (bytes : List Byte) (c : Connection) :
    (send bytes c).trace = [(writex bytes c.writes).bytes] := by
  rw [send, trace_note_bind]
  split <;> rfl

/-- All of it is sent and the session goes on, or a part of it and the session ends. -/
theorem send_spec (bytes : List Byte) (c : Connection) :
    ∃ sent, (send bytes c).trace = [sent] ∧
      (sent = bytes ∧ (∃ writes, (send bytes c).result = .ok { c with writes := writes }) ∨
        sent <+: bytes ∧ sent ≠ bytes ∧ (send bytes c).result = .error (-1)) := by
  refine ⟨(writex bytes c.writes).bytes, send_trace bytes c, ?_⟩
  have hok := writex_ok_iff bytes c.writes
  rw [send, result_note_bind]
  cases hw : (writex bytes c.writes).ok with
  | true => exact .inl ⟨hok.mp hw, _, rfl⟩
  | false =>
    refine .inr ⟨ writex_prefix bytes c.writes, fun hall => ?_, rfl⟩
    cases hw.symm.trans (hok.mpr hall)

end Sending

section Serving

variable {adbConnect : List Byte → Option Connection} {data : List Byte} {c : Connection}
  {k B : ℕ} {rest : List ReadResult}

/-- After `k` requests block `B` is asked for: its bytes are sent, all of them unless the connection
breaks, or it is not in the file and the session ends with an error and nothing is sent. -/
def Served (adbConnect : List Byte → Option Connection) (data : List Byte) (k B : ℕ)
    (rest : List ReadResult) : Prop :=
  let before := adbSideloadHost adbConnect (some data) k
  let after := adbSideloadHost adbConnect (some data) (k + 1)
  if B * 65536 < data.length then
    ∃ sent, after.trace = before.trace ++ [sent] ∧
      (sent = block data B ∧ (∃ writes, after.result = .ok ⟨rest, writes⟩) ∨
        sent <+: block data B ∧ sent ≠ block data B ∧ after.result = .error (-1))
  else after = ⟨before.trace, .error (-1)⟩

theorem adbDownloadBuffer_returns (service : List Byte) :
    (adbDownloadBuffer adbConnect service data).result ≠ .ok c := by
  intro h
  rw [adbDownloadBuffer] at h
  split at h
  next => cases h
  next =>
    obtain ⟨c', -, hrest⟩ := (result_bind_ok_iff _ _ _).mp h
    split at hrest <;> cases hrest

theorem adbSideloadHost_succ (h : (adbSideloadHost adbConnect (some data) k).result = .ok c) :
    adbSideloadHost adbConnect (some data) (k + 1) =
      ⟨(adbSideloadHost adbConnect (some data) k).trace ++ (serveRequest data c).trace,
        (serveRequest data c).result⟩ := by
  simp only [adbSideloadHost] at h ⊢
  cases hfd : adbConnect (sideloadService data.length) with
  | none =>
    rw [hfd] at h
    exact absurd h (adbDownloadBuffer_returns _)
  | some c₀ =>
    rw [hfd] at h
    exact loop_succ_of_ok h

theorem served_iff (hsize : data.length < 2 ^ 31)
    (hk : (adbSideloadHost adbConnect (some data) k).result = .ok c) (h : Request c B rest) :
    Served adbConnect data k B rest ↔ Addressed data.length B := by
  rw [Served, adbSideloadHost_succ hk]
  by_cases hB : B * 65536 < data.length
  · refine iff_of_true ?_ (.inl hB)
    rw [if_pos hB, serveRequest_block hsize h hB]
    obtain ⟨sent, htrace, hsent⟩ := send_spec (block data B) { c with reads := rest }
    exact ⟨sent, by rw [htrace], hsent⟩
  · rw [if_neg hB]
    by_cases hwrap : data.length ≤ B * 65536 % 2 ^ 32
    · refine iff_of_true ?_ (.inr hwrap)
      rw [serveRequest_refused hsize h hwrap, trace_exit, result_exit, List.append_nil]
    · refine iff_of_false (fun hserved => ?_) (not_or.mpr ⟨hB, hwrap⟩)
      obtain ⟨bytes, heq⟩ := serveRequest_wraps hsize h (not_le.mp hwrap)
      rw [heq, send_trace] at hserved
      have hlen := congrArg (fun x => x.trace.length) hserved
      simp at hlen

/-- Every block that is asked for is served as it should be exactly when none of the numbers wraps
around into the file. -/
theorem sideload_serves_iff (adbConnect : List Byte → Option Connection) (data : List Byte)
    (hsize : data.length < 2 ^ 31) :
    (∀ k c B rest, (adbSideloadHost adbConnect (some data) k).result = .ok c →
      Request c B rest → Served adbConnect data k B rest) ↔
      ∀ k c B rest, (adbSideloadHost adbConnect (some data) k).result = .ok c →
        Request c B rest → Addressed data.length B := by
  constructor
  · intro h k c B rest hk hrequest
    exact (served_iff hsize hk hrequest).mp (h k c B rest hk hrequest)
  · intro h k c B rest hk hrequest
    exact (served_iff hsize hk hrequest).mpr (h k c B rest hk hrequest)

def asking (request : List Byte) : List Byte → Option Connection := fun _ =>
  some ⟨[.data request], [.count 9]⟩

theorem sideload_serves_first : Served (asking (text "00000000")) [1, 2, 3] 0 0 [] := by
  refine (sideload_serves_iff (asking (text "00000000")) [1, 2, 3] (by decide)).mpr ?_ 0
    ⟨[.data (text "00000000")], [.count 9]⟩ 0 [] rfl
    ⟨text "00000000", rfl, by decide +kernel, by decide +kernel⟩
  rintro k c B rest hk ⟨buf, hread, -, rfl⟩
  match k with
  | 0 =>
    cases hk
    cases hread
    exact .inl (by decide)
  | 1 =>
    cases hk
    cases hread
  | k + 2 => cases hk

/-- Block 65536 is far behind the end of the file, and the first one is sent instead. -/
theorem sideload_wraps :
    (adbSideloadHost (asking (text "00065536")) (some [1, 2, 3]) 1).trace = [[1, 2, 3]] ∧
      ¬∀ k c B rest,
        (adbSideloadHost (asking (text "00065536")) (some [1, 2, 3]) k).result = .ok c →
          Request c B rest → Served (asking (text "00065536")) [1, 2, 3] k B rest := by
  have hrequest : Request ⟨[.data (text "00065536")], [.count 9]⟩ 65536 [] :=
    ⟨text "00065536", rfl, by decide +kernel, by decide +kernel⟩
  refine ⟨by decide +kernel, fun h => ?_⟩
  rcases (served_iff (by decide) rfl hrequest).mp (h 0 _ 65536 [] rfl hrequest) with hin | hbehind
  · exact absurd hin (by decide)
  · exact absurd hbehind (by decide)

end Serving

end PaxAdb.Sideload
