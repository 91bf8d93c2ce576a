import PaxAdb.SyncFrames

/-!
# How much the sync client reads

Every length the device announces is an `unsigned` that the client keeps in an `int`. A length below
`2 ^ 31` keeps its value, and the checks of the client then bound what it reads by the room of its
buffer. A length from `2 ^ 31` on is negative, passes every check, and becomes huge as a `size_t`:
`read` refuses it, and the client asked for it all the same.
-/

namespace PaxAdb.Sync

open List

section Conversions

theorem toInt_of_lt {x : UInt32} (h : x.toNat < 2 ^ 31) : toInt x = x.toNat := if_pos h

theorem toInt_neg {x : UInt32} (h : ¬x.toNat < 2 ^ 31) : toInt x < 0 := by
  have hx := x.toNat_lt
  rw [toInt, if_neg h]
  omega

theorem toSize_natCast {n : ℕ} (h : n < 2 ^ 64) : toSize n = n := by
  rw [toSize]
  omega

theorem toSize_toInt_neg {x : UInt32} (h : ¬x.toNat < 2 ^ 31) : 2 ^ 63 < toSize (toInt x) := by
  have hx := x.toNat_lt
  rw [toInt, if_neg h, toSize]
  omega

end Conversions

def asked {α : Type} (x : Call α) (c : Client) : List (ℕ × ℕ) :=
  (x c).2.requests.drop c.requests.length

def announced {α : Type} (x : Call α) (c : Client) : List UInt32 :=
  (x c).2.lengths.drop c.lengths.length

def Roomy (requests : List (ℕ × ℕ)) : Prop := ∀ q ∈ requests, q.2 ≤ q.1

def Positive (lengths : List UInt32) : Prop := ∀ n ∈ lengths, n.toNat < 2 ^ 31

/-- The reads between two states are in bounds exactly when the lengths announced are positive. -/
def Checked (c c' : Client) : Prop :=
  ∃ qs ns, c'.requests = c.requests ++ qs ∧ c'.lengths = c.lengths ++ ns ∧ (Roomy qs ↔ Positive ns)

namespace Checked

theorem of_eq {c c' : Client} (hq : c'.requests = c.requests) (hn : c'.lengths = c.lengths) :
    Checked c c' :=
  ⟨[], [], by rw [hq, append_nil], by rw [hn, append_nil],
    ⟨fun _ _ h => absurd h not_mem_nil, fun _ _ h => absurd h not_mem_nil⟩⟩

instance : IsPreorder Client Checked where
  refl _ := of_eq rfl rfl
  trans c₁ c₂ c₃ h h' := by
    obtain ⟨qs, ns, hq, hn, hiff⟩ := h
    obtain ⟨qs', ns', hq', hn', hiff'⟩ := h'
    refine ⟨qs ++ qs', ns ++ ns', ?_, ?_, ?_⟩
    · rw [hq', hq, append_assoc]
    · rw [hn', hn, append_assoc]
    · rw [Roomy, Positive, forall_mem_append, forall_mem_append]
      exact and_congr hiff hiff'

end Checked

/-- The reads of `x` are in bounds exactly when the lengths it looks at are positive. -/
abbrev Checks {α : Type} (x : Call α) : Prop := Proc.Within Checked x

theorem Checks.roomy_iff {α : Type} {x : Call α} (h : Checks x) (c : Client) :
    Roomy (asked x c) ↔ Positive (announced x c) := by
  obtain ⟨qs, ns, hq, hn, hiff⟩ := h c
  rw [asked, announced, hq, hn, drop_left, drop_left]
  exact hiff

section Reads

variable {α β : Type}

theorem readx_of_neg {room : ℕ} {size : UInt32} {c : Client} (hsize : ¬size.toNat < 2 ^ 31) :
    readx room (toInt size) c =
      (.error (.ret (-1)), c.ask room (toSize (toInt size)) c.arrivals) := by
  have hhuge := toSize_toInt_neg hsize
  simp only [readx]
  rw [if_neg (by omega)]

theorem readx_asks (room : ℕ) (len : ℤ) (c : Client) :
    (readx room len c).2.requests = c.requests ++ [(room, toSize len)] ∧
      (readx room len c).2.lengths = c.lengths := by
  simp only [readx]
  split
  · split <;> exact ⟨rfl, rfl⟩
  · exact ⟨rfl, rfl⟩

theorem readx_checks {room : ℕ} {len : ℤ} (h : toSize len ≤ room) : Checks (readx room len) := by
  intro c
  obtain ⟨hrequests, hlengths⟩ := readx_asks room len c
  refine ⟨[(room, toSize len)], [], hrequests, ?_, ?_⟩
  · rw [hlengths, append_nil]
  · simp [Roomy, Positive, h]

theorem readx_checks_of_le {room : ℕ} {len : ℤ} (hnonneg : 0 ≤ len) (hle : len ≤ room)
    (hroom : room < 2 ^ 63) : Checks (readx room len) := by
  refine readx_checks ?_
  rw [toSize]
  omega

/-- A length from the device is checked if it is positive; a negative one is used as it is. -/
theorem lengthField_checks {field : UInt32} (room : ℕ) {g : ℤ → Call β}
    (f : List Byte → Call β) (hroom : room < 2 ^ 63) (hpos : ∀ len, 0 ≤ len → Checks (g len))
    (hneg : ∀ len, len < 0 → g len = readx room len >>= f) :
    Checks (lengthField field >>= g) := by
  intro c
  change Checked c (g (toInt field) (c.look field)).2
  by_cases hlt : field.toNat < 2 ^ 31
  · have hlook : Checked c (c.look field) :=
      ⟨[], [field], (append_nil _).symm, rfl, by simpa [Roomy, Positive] using hlt⟩
    have hrest := hpos (toInt field) (by rw [toInt_of_lt hlt]; omega)
    exact IsPreorder.toIsTrans.trans _ _ _ hlook (hrest _)
  · -- the read asks for more than there is room for and fails, and nothing comes after it
    have hhuge := toSize_toInt_neg hlt
    have hover : ¬toSize (toInt field) ≤ room := by omega
    rw [hneg _ (toInt_neg hlt), Proc.bind_of_error _ (readx_of_neg hlt)]
    refine ⟨[(room, toSize (toInt field))], [field], rfl, rfl, ?_⟩
    · simp only [Roomy, Positive, forall_mem_singleton]
      exact iff_of_false hover hlt

theorem checkedRead_checks {field : UInt32} {room : ℕ} {f : List Byte → Call β}
    (hroom : room < 2 ^ 63) (hf : ∀ bytes, Checks (f bytes)) :
    Checks (lengthField field >>= fun len =>
      if len > room then fail else readx room len >>= f) := by
  refine lengthField_checks room f hroom (fun len hnonneg => ?_) (fun len hneg => ?_)
  · refine .ite (fun _ => .exit _) (fun hle => .bind ?_ hf)
    exact readx_checks_of_le hnonneg (not_lt.mp hle) hroom
  · exact if_neg (by omega)

theorem readFailMessage_checks (size : UInt32) : Checks (readFailMessage size) := by
  refine lengthField_checks 256 (fun _ => pure ()) (by decide) (fun len hnonneg => ?_)
    (fun len hneg => ?_)
  · refine .bind (readx_checks_of_le ?_ ?_ (by decide)) (fun _ => .pure ())
    · split <;> omega
    · split <;> omega
  · rw [if_neg (by omega)]

theorem readMsg_checks (n : ℕ) (h : n ≤ 5) : Checks (readMsg n) :=
  .bind (readx_checks_of_le (by omega) (by omega) (by omega)) (fun _ => .pure _)

end Reads

section Functions

variable {α β : Type}

theorem LocalOnly.checked {c c' : Client} (h : LocalOnly c c') : Checked c c' :=
  Checked.of_eq h.requests h.lengths

theorem tryWritex_checks (bytes : List Byte) : Checks (tryWritex bytes) :=
  fun _ => Checked.of_eq rfl rfl

theorem writex_checks (bytes : List Byte) : Checks (writex bytes) :=
  .bind (tryWritex_checks bytes) (fun _ => .ite (fun _ => .pure ()) (fun _ => .exit _))

theorem request_checks (id : UInt32) (path : Path) : Checks (request id path) :=
  .bind (writex_checks _) (fun _ => writex_checks path)

theorem statRequest_checks (path : Path) : Checks (statRequest path) := by
  refine .bind (request_checks _ _) (fun _ => .bind (readMsg_checks 4 (by omega)) (fun msg => ?_))
  split
  · exact .ite (fun _ => .pure _) (fun _ => .exit _)
  · exact .exit _

theorem syncLsLoop_checks (func : β → Entry → β) (fuel : ℕ) (cookie : β) :
    Checks (syncLsLoop func fuel cookie) := by
  induction fuel generalizing cookie with
  | zero => exact .exit _
  | succ fuel ih =>
    refine .bind (readMsg_checks 5 le_rfl) (fun msg => ?_)
    split
    · refine .ite (fun _ => .pure _) (fun _ => .ite (fun _ => .exit _) (fun _ => ?_))
      exact checkedRead_checks (by decide) (fun _ => ih _)
    · exact .exit _

theorem syncLs_checks (path : Path) (func : β → Entry → β) (cookie : β) :
    Checks (syncLs path func cookie) :=
  .ite (fun _ => .exit _) (fun _ => .bind (request_checks _ _)
    (fun _ => .bind .state (fun _ => syncLsLoop_checks func _ cookie)))

theorem remoteError_checks (lpath : Path) (id size : UInt32) : Checks (remoteError lpath id size) :=
  .bind ((adbUnlink_path lpath).mono (fun _ _ h => h.toLocalOnly.checked))
    (fun _ => .ite (fun _ => readFailMessage_checks size) (fun _ => .pure ()))

theorem recvData_checks (lpath : Path) (size : UInt32) {next : UInt32 → UInt32 → Call Unit}
    (hnext : ∀ id size, Checks (next id size)) : Checks (recvData lpath size next) := by
  refine checkedRead_checks (by decide) (fun bytes => ?_)
  refine .bind ((writeLocal_local lpath bytes).mono (fun _ _ => LocalOnly.checked)) (fun _ => ?_)
  refine .bind (readMsg_checks 2 (by omega)) (fun msg => ?_)
  split
  · exact hnext _ _
  · exact .exit _

theorem recvLoop_checks (lpath : Path) (fuel : ℕ) (id size : UInt32) :
    Checks (recvLoop lpath fuel id size) := by
  induction fuel generalizing id size with
  | zero => exact .exit _
  | succ fuel ih =>
    exact .ite (fun _ => .pure ()) (fun _ => .ite (fun _ => remoteError_checks _ _ _)
      (fun _ => recvData_checks lpath size ih))

theorem recvRequest_checks (rpath : Path) (showProgress : Bool) :
    Checks (recvRequest rpath showProgress) :=
  .ite (fun _ => .exit _) (fun _ =>
    .bind (.ite (fun _ => statRequest_checks rpath) (fun _ => .pure _))
      (fun _ => .bind (request_checks _ _) (fun _ => readMsg_checks 2 (by omega))))

theorem recvReply_checks (lpath : Path) (msg : List UInt32) : Checks (recvReply lpath msg) := by
  rw [recvReply.eq_def]
  split
  · refine .ite (fun _ => ?_) (fun _ => remoteError_checks _ _ _)
    refine .bind ((openTarget_path lpath).mono (fun _ _ h => h.toLocalOnly.checked)) (fun _ => ?_)
    exact .ite (fun _ => .bind .state (fun _ => recvLoop_checks _ _ _ _)) (fun _ => .exit _)
  · exact .exit _

theorem syncRecv_checks (rpath lpath : Path) (showProgress : Bool) :
    Checks (syncRecv rpath lpath showProgress) :=
  .bind (recvRequest_checks rpath showProgress) (recvReply_checks lpath)

theorem nextCall_checks : Checks nextCall :=
  nextCall_path.mono (fun _ _ h => h.toLocalOnly.checked)

theorem writeDataLoop_checks (fuel : ℕ) (left : List Byte) : Checks (writeDataLoop fuel left) := by
  induction fuel generalizing left with
  | zero => exact .pure _
  | succ fuel ih =>
    refine .bind (nextRead_local.mono (fun _ _ => LocalOnly.checked)) (fun r => ?_)
    cases r with
    | eintr => exact ih left
    | error => exact .pure _
    | count n =>
      refine .ite (fun _ => .pure _) (fun _ => .bind (tryWritex_checks _) (fun _ => ?_))
      exact .ite (fun _ => ih _) (fun _ => .pure _)

theorem writeDataFile_checks (path : Path) (showProgress : Bool) :
    Checks (writeDataFile path showProgress) := by
  refine .bind nextCall_checks (fun _ => .ite (fun _ => .pure _) (fun _ => ?_))
  refine .bind (.ite (fun _ => nextCall_checks) (fun _ => .pure _)) (fun _ => ?_)
  exact .ite (fun _ => .pure _) (fun _ => .bind .state (fun _ => writeDataLoop_checks _ _))

theorem writeDataLink_checks (path : Path) : Checks (writeDataLink path) :=
  .bind nextCall_checks (fun _ => .ite (fun _ => .pure _)
    (fun _ => .bind .state (fun _ => tryWritex_checks _)))

theorem sendRequest_checks (rpath : Path) (mode : UInt32) : Checks (sendRequest rpath mode) :=
  .ite (fun _ => .exit _) (fun _ => .bind (writex_checks _)
    (fun _ => .bind (writex_checks _) (fun _ => writex_checks _)))

theorem sendReply_checks : Checks sendReply := by
  refine .bind (readMsg_checks 2 (by omega)) (fun msg => ?_)
  split
  · refine .ite (fun _ => .pure ()) (fun _ => .ite (fun _ => ?_) (fun _ => .exit _))
    exact .bind (readFailMessage_checks _) (fun _ => .exit _)
  · exact .exit _

theorem syncSend_checks (lpath rpath : Path) (mtime mode : UInt32) (showProgress : Bool) :
    Checks (syncSend lpath rpath mtime mode showProgress) := by
  refine .bind (sendRequest_checks rpath mode) (fun _ => ?_)
  refine .bind (.ite (fun _ => writeDataFile_checks _ _) (fun _ =>
    .ite (fun _ => writeDataLink_checks _) (fun _ => .exit _))) (fun _ => ?_)
  exact .bind (writex_checks _) (fun _ => sendReply_checks)

end Functions

/-- The reads of `sync_ls`, `sync_recv` and `sync_send` stay within their buffers exactly when no
length they look at has its highest bit set. -/
theorem sync_reads_bounded_iff (c : Client) :
    (∀ (β : Type) (path : Path) (func : β → Entry → β) (cookie : β),
      Roomy (asked (syncLs path func cookie) c) ↔
        Positive (announced (syncLs path func cookie) c)) ∧
    (∀ (rpath lpath : Path) (showProgress : Bool),
      Roomy (asked (syncRecv rpath lpath showProgress) c) ↔
        Positive (announced (syncRecv rpath lpath showProgress) c)) ∧
    (∀ (lpath rpath : Path) (mtime mode : UInt32) (showProgress : Bool),
      Roomy (asked (syncSend lpath rpath mtime mode showProgress) c) ↔
        Positive (announced (syncSend lpath rpath mtime mode showProgress) c)) :=
  ⟨fun _ path func cookie => (syncLs_checks path func cookie).roomy_iff c,
    fun rpath lpath showProgress => (syncRecv_checks rpath lpath showProgress).roomy_iff c,
    fun lpath rpath mtime mode showProgress =>
      (syncSend_checks lpath rpath mtime mode showProgress).roomy_iff c⟩

def Client.hearing (words : List UInt32) : Client where
  connected := true
  arrivals := [.data (LittleEndian.encodeWords words)]
  results := replicate 16 (.count SYNC_DATA_MAX)
  sent := []
  lengths := []
  requests := []
  calls := []
  reads := []
  writes := []
  content := fun _ => none
  stat := fun _ => none
  touched := []

/-- A length of `2 ^ 32 - 1` in a directory entry, in a data message, and in a refusal of a pull
and of a push. -/
theorem sync_reads_overflow :
    asked (syncLs (text "/") (fun _ _ => ()) ()) (.hearing [ID_DENT, 0, 0, 0, 0xffffffff]) =
      [(20, 20), (256, 2 ^ 64 - 1)] ∧
    asked (syncRecv (text "/f") (text "f") false) (.hearing [ID_DATA, 0xffffffff]) =
      [(8, 8), (SYNC_DATA_MAX, 2 ^ 64 - 1)] ∧
    asked (syncRecv (text "/f") (text "f") false) (.hearing [ID_FAIL, 0xffffffff]) =
      [(8, 8), (256, 2 ^ 64 - 1)] ∧
    asked (syncSend (text "f") (text "/f") 0 0x81a4 false) (.hearing [ID_FAIL, 0xffffffff]) =
      [(8, 8), (256, 2 ^ 64 - 1)] := by
  decide +kernel

end PaxAdb.Sync
