import PaxAdb.SyncBounds

/-!
# What the device sends for a pull

The replies of the device to a `RECV` request are a sequence of `DATA` messages and an ending, and
`replies` reads them off the connection. The loop of `sync_recv` stores the payloads and comes to
the result that belongs to the ending, unless the local file cannot take a payload.
-/

namespace PaxAdb.Sync

open LittleEndian Proc List

inductive Ending where
  /-- a `DONE` message -/
  | done
  /-- a `FAIL` message with its text, or an unknown id -/
  | refused
  /-- the connection ends inside a message, or its length cannot be read -/
  | broken
  /-- a payload that is too long -/
  | overrun
  deriving DecidableEq, Repr

section Reading

variable {c : Client} {n : ℕ} {bytes : List Byte} {rest : List ReadResult}

theorem readx_of_some (room : ℕ) (hn : n < 2 ^ 63)
    (h : PaxAdb.readx n c.arrivals = some (bytes, rest)) :
    readx room n c = (.ok bytes, c.ask room n rest) := by
  simp only [readx, toSize_natCast (hn.trans (by decide)), if_pos hn, h]

theorem readx_of_none (room : ℕ) (hn : n < 2 ^ 63)
    (h : PaxAdb.readx n c.arrivals = none) :
    readx room n c = (.error (.ret (-1)), c.ask room n []) := by
  simp only [readx, toSize_natCast (hn.trans (by decide)), if_pos hn, h]

theorem readMsg_of_some (hn : 4 * n < 2 ^ 63)
    (h : PaxAdb.readx (4 * n) c.arrivals = some (bytes, rest)) :
    readMsg n c = (.ok (decodeWords bytes), c.ask (4 * n) (4 * n) rest) := by
  have hread := readx_of_some (4 * n) hn h
  rw [Nat.cast_mul, Nat.cast_ofNat] at hread
  rw [readMsg, bind_of_ok _ hread]
  rfl

theorem readMsg_of_none (hn : 4 * n < 2 ^ 63) (h : PaxAdb.readx (4 * n) c.arrivals = none) :
    readMsg n c = (.error (.ret (-1)), c.ask (4 * n) (4 * n) []) := by
  have hread := readx_of_none (4 * n) hn h
  rw [Nat.cast_mul, Nat.cast_ofNat] at hread
  rw [readMsg, bind_of_error _ hread]

theorem readMsg_ok {ws : List UInt32} {c' : Client} (hn : 4 * n < 2 ^ 63)
    (h : readMsg n c = (.ok ws, c')) :
    ws.length = n ∧ arrived c.arrivals = encodeWords ws ++ arrived c'.arrivals ∧
      c'.sent = c.sent := by
  rcases hread : PaxAdb.readx (4 * n) c.arrivals with _ | ⟨bytes, rest⟩
  · rw [readMsg_of_none hn hread] at h
    cases h
  · rw [readMsg_of_some hn hread] at h
    cases h
    obtain ⟨hlen, harr⟩ := readx_some _ _ hread
    rw [encodeWords_decodeWords n bytes hlen]
    exact ⟨length_decodeWords n bytes hlen, harr, rfl⟩

theorem readx_header (arrivals : List ReadResult) :
    PaxAdb.readx 8 arrivals = none ∨
    ∃ header rest id size, PaxAdb.readx 8 arrivals = some (header, rest) ∧
      decodeWords header = [id, size] := by
  rcases h : PaxAdb.readx 8 arrivals with _ | ⟨header, rest⟩
  · exact Or.inl rfl
  · have hlen := length_decodeWords 2 header (readx_some 8 arrivals h).1
    obtain ⟨id, size, hwords⟩ := length_eq_two.mp hlen
    exact Or.inr ⟨header, rest, id, size, rfl, hwords⟩

end Reading

def replies (id size : UInt32) (arrivals : List ReadResult) : List (List Byte) × Ending :=
  if id = ID_DONE then ([], .done)
  else if id = ID_DATA then
    if SYNC_DATA_MAX < size.toNat then ([], .overrun)
    else
      match _hread : PaxAdb.readx size.toNat arrivals with
      | none => ([], .broken)
      | some (payload, rest) =>
          match _hnext : PaxAdb.readx 8 rest with
          | none => ([payload], .broken)
          | some (header, rest') =>
              let msg := decodeWords header
              let next := replies (msg.getD 0 0) (msg.getD 1 0) rest'
              (payload :: next.1, next.2)
  else if id = ID_FAIL then
    if ¬size.toNat < 2 ^ 31 then ([], .broken)
    else
      match PaxAdb.readx (min size.toNat 256) arrivals with
      | none => ([], .broken)
      | some _ => ([], .refused)
  else ([], .refused)
termination_by (arrived arrivals).length
decreasing_by
  obtain ⟨hlen, happ⟩ := readx_some _ _ _hread
  obtain ⟨hlen', happ'⟩ := readx_some _ _ _hnext
  rw [happ, happ', length_append, length_append, hlen']
  omega

section Replies

variable {id size : UInt32} {arrivals rest rest' : List ReadResult}

theorem replies_done : replies ID_DONE size arrivals = ([], .done) := by
  rw [replies, if_pos rfl]

theorem replies_overrun (hmax : SYNC_DATA_MAX < size.toNat) :
    replies ID_DATA size arrivals = ([], .overrun) := by
  rw [replies, if_neg (by decide), if_pos rfl, if_pos hmax]

section DataReply

variable (hmax : ¬SYNC_DATA_MAX < size.toNat)

include hmax

theorem replies_cut (hread : PaxAdb.readx size.toNat arrivals = none) :
    replies ID_DATA size arrivals = ([], .broken) := by
  rw [replies, if_neg (by decide), if_pos rfl, if_neg hmax]
  split
  · rfl
  · simp_all

theorem replies_last_cut {payload : List Byte}
    (hread : PaxAdb.readx size.toNat arrivals = some (payload, rest))
    (hnext : PaxAdb.readx 8 rest = none) :
    replies ID_DATA size arrivals = ([payload], .broken) := by
  rw [replies, if_neg (by decide), if_pos rfl, if_neg hmax]
  split
  · simp_all
  · split <;> simp_all

theorem replies_data {payload header : List Byte} {id' size' : UInt32}
    (hread : PaxAdb.readx size.toNat arrivals = some (payload, rest))
    (hnext : PaxAdb.readx 8 rest = some (header, rest'))
    (hmsg : decodeWords header = [id', size']) : replies ID_DATA size arrivals =
      (payload :: (replies id' size' rest').1, (replies id' size' rest').2) := by
  rw [replies, if_neg (by decide), if_pos rfl, if_neg hmax]
  split
  · simp_all
  · split <;> simp_all

end DataReply

theorem replies_error (hdone : id ≠ ID_DONE) (hdata : id ≠ ID_DATA) :
    replies id size arrivals =
      if id = ID_FAIL then
        if size.toNat < 2 ^ 31 ∧ (PaxAdb.readx (min size.toNat 256) arrivals).isSome then
          ([], .refused)
        else ([], .broken)
      else ([], .refused) := by
  rw [replies, if_neg hdone, if_neg hdata]
  split
  · split
    · simp_all
    · split <;> simp_all
  · rfl

theorem replies_error_ne_done (hdone : id ≠ ID_DONE) (hdata : id ≠ ID_DATA) :
    (replies id size arrivals).2 ≠ .done := by
  rw [replies_error hdone hdata]
  split
  · split <;> exact nofun
  · exact nofun

end Replies

def storeAll : List (List Byte) → List WriteResult → Bool
  | [], _ => true
  | payload :: payloads, writes =>
      (PaxAdb.writex payload writes).ok && storeAll payloads (PaxAdb.writex payload writes).rest

def Ending.result : Ending → Except Stop Unit
  | .done => .ok ()
  | .refused => .ok ()
  | .broken => .error (.ret (-1))
  | .overrun => .error (.ret (-1))

section Loop

variable {lpath : Path} {c : Client}

theorem readFailMessage_result (size : UInt32) (c : Client) :
    (readFailMessage size c).1 =
      if size.toNat < 2 ^ 31 ∧ (PaxAdb.readx (min size.toNat 256) c.arrivals).isSome then .ok ()
      else .error (.ret (-1)) := by
  have hlook : lengthField size c = (.ok (toInt size), c.look size) := rfl
  rw [readFailMessage, bind_of_ok _ hlook]
  by_cases hsize : size.toNat < 2 ^ 31
  · have hclip : (if toInt size > 256 then 256 else toInt size) = (min size.toNat 256 : ℕ) := by
      rw [toInt_of_lt hsize]
      split <;> omega
    rw [hclip]
    rcases hread : PaxAdb.readx (min size.toNat 256) (c.look size).arrivals with _ | ⟨message, rest⟩
    · rw [bind_of_error _ (readx_of_none 256 (by omega) hread)]
      change PaxAdb.readx _ c.arrivals = none at hread
      rw [hread, if_neg (fun h => nomatch h.2)]
    · rw [bind_of_ok _ (readx_of_some 256 (by omega) hread)]
      change PaxAdb.readx _ c.arrivals = some _ at hread
      rw [hread, if_pos ⟨hsize, rfl⟩]
      rfl
  · have hneg := toInt_neg hsize
    have hclip : (if toInt size > 256 then 256 else toInt size) = toInt size := if_neg (by omega)
    rw [hclip, bind_of_error _ (readx_of_neg hsize), if_neg (fun h => hsize h.1)]

theorem remoteError_result (lpath : Path) {id : UInt32} (size : UInt32) (c : Client)
    (hdone : id ≠ ID_DONE) (hdata : id ≠ ID_DATA) :
    (replies id size c.arrivals).1 = [] ∧
      (remoteError lpath id size c).1 = (replies id size c.arrivals).2.result := by
  obtain ⟨_, c', hunlink, hlocal⟩ := (adbUnlink_total lpath).within (adbUnlink_path lpath) c
  rw [remoteError, bind_of_ok _ hunlink, replies_error hdone hdata, ← hlocal.arrivals]
  by_cases hfail : id = ID_FAIL
  · rw [if_pos hfail, if_pos hfail, readFailMessage_result]
    split <;> exact ⟨rfl, rfl⟩
  · rw [if_neg hfail, if_neg hfail]
    exact ⟨rfl, rfl⟩

theorem writeLocal_apply (path : Path) (bytes : List Byte) (c : Client) :
    ∃ c', writeLocal path bytes c =
        (if (PaxAdb.writex bytes c.writes).ok then .ok () else .error (.ret (-1)), c') ∧
      LocalOnly c c' ∧ c'.writes = (PaxAdb.writex bytes c.writes).rest ∧
      c'.content path = (c.content path).map (· ++ (PaxAdb.writex bytes c.writes).bytes) := by
  have hlocal := writeLocal_local path bytes c
  refine ⟨(writeLocal path bytes c).2, Prod.ext ?_ rfl, hlocal, ?_, ?_⟩
  · simp only [writeLocal]
    split <;> rfl
  · simp only [writeLocal]
    split <;> rfl
  · simp only [writeLocal]
    split <;> exact Function.update_self _ _ _

structure Received (lpath : Path) (data : List Byte) (payloads : List (List Byte)) (ending : Ending)
    (stored : Bool) (r : Except Stop Unit × Client) : Prop where
  result : r.1 = if stored then ending.result else .error (.ret (-1))
  content : stored → ending = .done → r.2.content lpath = some (data ++ payloads.flatten)

/-- One `DATA` message, when the messages after it are received as they should be. -/
theorem dataMessage_received (size : UInt32) (c : Client) {data : List Byte}
    {next : UInt32 → UInt32 → Call Unit} (hcontent : c.content lpath = some data)
    (hnext : ∀ id size c' data', (arrived c'.arrivals).length < (arrived c.arrivals).length →
      c'.content lpath = some data' →
      Received lpath data' (replies id size c'.arrivals).1 (replies id size c'.arrivals).2
        (storeAll (replies id size c'.arrivals).1 c'.writes) (next id size c')) :
    Received lpath data (replies ID_DATA size c.arrivals).1 (replies ID_DATA size c.arrivals).2
      (storeAll (replies ID_DATA size c.arrivals).1 c.writes)
      (recvData lpath size next c) := by
  have hlook : lengthField size c = (.ok (toInt size), c.look size) := rfl
  rw [recvData, bind_of_ok _ hlook]
  by_cases hsize : size.toNat < 2 ^ 31
  · rw [toInt_of_lt hsize]
    by_cases hmax : SYNC_DATA_MAX < size.toNat
    · rw [if_pos (by exact_mod_cast hmax), replies_overrun hmax]
      exact ⟨rfl, fun _ hend => nomatch hend⟩
    rw [if_neg (by exact_mod_cast hmax)]
    rcases hread : PaxAdb.readx size.toNat c.arrivals with _ | ⟨payload, rest⟩
    · rw [bind_of_error _ (readx_of_none (c := c.look size) _ (by omega) hread),
        replies_cut hmax hread]
      exact ⟨rfl, fun _ hend => nomatch hend⟩
    obtain ⟨hlen, happ⟩ := readx_some _ _ hread
    rw [bind_of_ok _ (readx_of_some (c := c.look size) _ (by omega) hread)]
    generalize hc₁ : (c.look size).ask SYNC_DATA_MAX size.toNat rest = c₁
    have hwrites₁ : c₁.writes = c.writes := by rw [← hc₁]; rfl
    have hcontent₁ : c₁.content lpath = some data := by rw [← hc₁]; exact hcontent
    have harr₁ : c₁.arrivals = rest := by rw [← hc₁]; rfl
    obtain ⟨c₂, hwrite, hlocal, hwrites, hcont⟩ := writeLocal_apply lpath payload c₁
    rw [hwrites₁] at hwrite hwrites hcont
    have harr₂ : c₂.arrivals = rest := hlocal.arrivals.trans harr₁
    by_cases hok : (PaxAdb.writex payload c.writes).ok = true
    · rw [if_pos hok] at hwrite
      rw [bind_of_ok _ hwrite]
      rw [(writex_ok_iff _ _).mp hok, hcontent₁] at hcont
      rcases readx_header c₂.arrivals with hnone | ⟨header, rest', id', size', hsome, hmsg⟩
      · rw [bind_of_error _ (readMsg_of_none (by decide) hnone)]
        rw [harr₂] at hnone
        rw [replies_last_cut hmax hread hnone]
        refine ⟨?_, fun _ hend => nomatch hend⟩
        rw [storeAll, hok]
        rfl
      · rw [bind_of_ok _ (readMsg_of_some (by decide) hsome), hmsg]
        obtain ⟨hlen', happ'⟩ := readx_some _ _ hsome
        rw [harr₂] at hsome happ'
        rw [replies_data hmax hread hsome hmsg, storeAll, hok, Bool.true_and, ← hwrites]
        have hrest := hnext id' size' (c₂.ask 8 8 rest') (data ++ payload) ?_ hcont
        · refine ⟨hrest.result, fun hstored hend => ?_⟩
          rw [hrest.content hstored hend, flatten_cons, append_assoc]
          rfl
        · change (arrived rest').length < _
          rw [happ, happ', length_append, length_append, hlen']
          omega
    · rw [if_neg hok] at hwrite
      rw [bind_of_error _ hwrite]
      obtain ⟨payloads, hpayloads⟩ :
          ∃ payloads, (replies ID_DATA size c.arrivals).1 = payload :: payloads := by
        rcases readx_header rest with hnone | ⟨header, rest', id', size', hsome, hmsg⟩
        · rw [replies_last_cut hmax hread hnone]
          exact ⟨[], rfl⟩
        · rw [replies_data hmax hread hsome hmsg]
          exact ⟨_, rfl⟩
      rw [hpayloads, storeAll, Bool.eq_false_of_not_eq_true hok, Bool.false_and]
      exact ⟨rfl, fun hstored => nomatch hstored⟩
  · have hneg := toInt_neg hsize
    have hmax : SYNC_DATA_MAX < size.toNat := lt_of_lt_of_le (by decide) (not_lt.mp hsize)
    rw [if_neg (by omega), bind_of_error _ (readx_of_neg hsize), replies_overrun hmax]
    exact ⟨rfl, fun _ hend => nomatch hend⟩

theorem recvLoop_received (fuel : ℕ) (id size : UInt32) (c : Client) {data : List Byte}
    (hfuel : (arrived c.arrivals).length < fuel) (hcontent : c.content lpath = some data) :
    Received lpath data (replies id size c.arrivals).1 (replies id size c.arrivals).2
      (storeAll (replies id size c.arrivals).1 c.writes) (recvLoop lpath fuel id size c) := by
  induction fuel generalizing id size c data with
  | zero => omega
  | succ fuel ih =>
    rw [recvLoop]
    by_cases hdone : id = ID_DONE
    · rw [if_pos hdone, hdone, replies_done]
      refine ⟨rfl, fun _ _ => ?_⟩
      rw [flatten_nil, append_nil]
      exact hcontent
    rw [if_neg hdone]
    by_cases hdata : id = ID_DATA
    · rw [if_neg (not_not.mpr hdata), hdata]
      refine dataMessage_received size c hcontent (fun id' size' c' data' hlt hcontent' => ?_)
      exact ih id' size' c' (by omega) hcontent'
    · obtain ⟨hnil, hresult⟩ := remoteError_result lpath size c hdone hdata
      rw [if_pos hdata, hnil]
      exact ⟨hresult, fun _ hend => absurd hend (replies_error_ne_done hdone hdata)⟩

end Loop

end PaxAdb.Sync
