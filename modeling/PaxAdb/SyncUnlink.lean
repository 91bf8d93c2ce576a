import PaxAdb.SyncPush

/-!
# Removing a file on the device

`do_sync_unlink` asks for the mode of the path with a `STAT` request and then sends `ULNK`, on the
same connection. Only a reply that names a directory keeps it from that: when the reply is missing,
too short or of another kind the file is removed all the same, and the answer to `ULNK` is looked
for wherever the first exchange has left the stream.
-/

namespace PaxAdb.Sync

open LittleEndian List Proc IsPreorder

def ID_ULNK : UInt32 := MKID 'U' 'L' 'N' 'K'

section Unlink

def syncUnlink (path : Path) : Call Unit := do
  request ID_ULNK path
  let msg ← readMsg 2
  match msg with
  | [id, _] => if id = ID_OKAY then pure () else fail
  | _ => fail

/-- `sync_readmode` has returned 0 with the mode of a directory. -/
def NamesDirectory : Except Stop UInt32 → Prop
  | .ok mode => mode ≠ 0 ∧ S_ISDIR mode
  | .error _ => False

instance : DecidablePred NamesDirectory
  | .ok _ => inferInstanceAs (Decidable (_ ∧ _))
  | .error _ => inferInstanceAs (Decidable False)

def unlinkEnd (rpath : Path) : Call Unit := do
  let ret ← attempt (syncUnlink rpath)
  syncQuit
  match ret with
  | .ok () => pure ()
  | .error _ => exit (.ret 1)

def doSyncUnlink (rpath : Path) : Call Unit := do
  adbConnect
  let mode ← attempt (syncReadmode rpath)
  if NamesDirectory mode then do
    syncQuit
    exit (.ret 1)
  else unlinkEnd rpath

end Unlink

section Logs

variable {msgs : List (List Byte)} {path : Path} {c c' : Client}

def Logs (msgs : List (List Byte)) (c c' : Client) : Prop :=
  ∃ new, c'.sent = c.sent ++ new ∧ ∀ e ∈ new, e.ok = true → e.bytes ∈ msgs

instance : IsPreorder Client (Logs msgs) where
  refl c := ⟨[], (append_nil _).symm, nofun⟩
  trans _ _ _ := by
    rintro ⟨new, hsent, hnew⟩ ⟨new', hsent', hnew'⟩
    refine ⟨new ++ new', by rw [hsent', hsent, append_assoc], fun e he => ?_⟩
    rcases mem_append.mp he with he | he
    · exact hnew e he
    · exact hnew' e he

theorem Logs.of_sent (h : c'.sent = c.sent) : Logs msgs c c' :=
  ⟨[], by rw [h, append_nil], nofun⟩

theorem Logs.not_mem {bytes : List Byte} (h : Logs msgs c c') (hbytes : bytes ∉ msgs) :
    ⟨bytes, true⟩ ∉ c'.sent.drop c.sent.length := by
  obtain ⟨new, hsent, hnew⟩ := h
  rw [hsent, drop_left]
  exact fun hmem => hbytes (hnew _ hmem rfl)

theorem tryWritex_logs {bytes : List Byte} (h : bytes ∈ msgs) :
    Proc.Within (Logs msgs) (tryWritex bytes) := by
  intro c
  refine ⟨[_], rfl, fun e he hok => ?_⟩
  rw [mem_singleton.mp he] at hok ⊢
  rwa [(writex_ok_iff _ _).mp hok]

theorem writex_logs {bytes : List Byte} (h : bytes ∈ msgs) :
    Proc.Within (Logs msgs) (writex bytes) :=
  .bind (tryWritex_logs h) fun _ => .ite (fun _ => .pure _) fun _ => .exit _

theorem readMsg_logs (n : ℕ) (hn : 4 * n < 2 ^ 63) : Proc.Within (Logs msgs) (readMsg n) := by
  intro c
  rcases hread : PaxAdb.readx (4 * n) c.arrivals with _ | ⟨bytes, rest⟩
  · rw [readMsg_of_none hn hread]
    exact .of_sent rfl
  · rw [readMsg_of_some hn hread]
    exact .of_sent rfl

def header (id : UInt32) (path : Path) : List Byte := encodeWords [id, UInt32.ofNat path.length]

theorem request_logs {id : UInt32} (hheader : header id path ∈ msgs) (hpath : path ∈ msgs) :
    Proc.Within (Logs msgs) (request id path) :=
  .bind (writex_logs hheader) fun _ => writex_logs hpath

theorem syncReadmode_logs (hheader : header ID_STAT path ∈ msgs) (hpath : path ∈ msgs) :
    Proc.Within (Logs msgs) (syncReadmode path) := by
  refine .bind (.bind (request_logs hheader hpath) fun _ => ?_) fun _ => .pure _
  refine .bind (readMsg_logs 4 (by decide)) fun msg => ?_
  split
  · exact .ite (fun _ => .pure _) fun _ => .exit _
  · exact .exit _

theorem syncQuit_logs (h : encodeWords [ID_QUIT, 0] ∈ msgs) :
    Proc.Within (Logs msgs) syncQuit := .bind (tryWritex_logs h) fun _ => .pure _

/-- The header of `ULNK` is no message of the first exchange: a path has no NUL in it. -/
theorem header_ulnk_not_mem (hnul : 0 ∉ path) :
    header ID_ULNK path ∉ [header ID_STAT path, path, encodeWords [ID_QUIT, 0]] := by
  intro hmem
  rcases mem_cons.mp hmem with heq | hmem
  · have hdecode := congrArg decodeWords heq
    rw [header, header, decodeWords_encodeWords, decodeWords_encodeWords] at hdecode
    exact absurd (cons.inj hdecode).1 (by decide)
  rcases mem_cons.mp hmem with heq | hmem
  · have hlen : path.length = 8 := by
      rw [← heq, header, length_encodeWords]
      rfl
    refine hnul ?_
    rw [← heq, header, hlen]
    decide
  · have hdecode := congrArg decodeWords (mem_singleton.mp hmem)
    rw [header, decodeWords_encodeWords, decodeWords_encodeWords] at hdecode
    exact absurd (cons.inj hdecode).1 (by decide)

end Logs

section Exchanges

variable {path : Path} {mode : UInt32} {c c' : Client}

def Client.put (c : Client) (bytes : List Byte) : Client :=
  { c with
    results := (PaxAdb.writex bytes c.results).rest
    sent := c.sent ++ [⟨bytes, true⟩] }

theorem writex_stored_iff {bytes : List Byte} :
    writex bytes c = (.ok (), c') ↔
      (PaxAdb.writex bytes c.results).ok = true ∧ c' = c.put bytes := by
  rw [writex_apply]
  by_cases hok : (PaxAdb.writex bytes c.results).ok = true
  · rw [if_pos hok, Client.wrote, hok, (writex_ok_iff _ _).mp hok]
    simp only [Prod.mk.injEq, true_and]
    exact eq_comm
  · rw [if_neg hok]
    refine iff_of_false (fun h => ?_) fun h => hok h.1
    cases h

theorem request_stored_iff {id : UInt32} : request id path c = (.ok (), c') ↔
    storeAll [header id path, path] c.results = true ∧
      c' = (c.put (header id path)).put path := by
  rw [request, bind_ok_iff]
  simp only [storeAll, Bool.and_eq_true, and_true]
  constructor
  · rintro ⟨_, c₁, h₁, h₂⟩
    obtain ⟨hheader, rfl⟩ := writex_stored_iff.mp h₁
    obtain ⟨hpath, rfl⟩ := writex_stored_iff.mp h₂
    exact ⟨⟨hheader, hpath⟩, rfl⟩
  · rintro ⟨⟨hheader, hpath⟩, rfl⟩
    exact ⟨(), _, writex_stored_iff.mpr ⟨hheader, rfl⟩, writex_stored_iff.mpr ⟨hpath, rfl⟩⟩

/-- The request for the mode goes out, and the first thing that comes is a `STAT` record. -/
def StatReply (path : Path) (c : Client) (mode : UInt32) (rest : List ReadResult) : Prop :=
  storeAll [header ID_STAT path, path] c.results = true ∧
    ∃ size time, PaxAdb.readx 16 c.arrivals = some (encodeWords [ID_STAT, mode, size, time], rest)

def Client.afterStat (c : Client) (path : Path) (rest : List ReadResult) : Client :=
  ((c.put (header ID_STAT path)).put path).ask 16 16 rest

theorem syncReadmode_stat {rest : List ReadResult} (h : StatReply path c mode rest) :
    syncReadmode path c = (.ok mode, c.afterStat path rest) := by
  obtain ⟨hstored, size, time, hread⟩ := h
  have hmsg := readMsg_of_some (n := 4) (c := (c.put (header ID_STAT path)).put path) (by decide)
    hread
  rw [decodeWords_encodeWords] at hmsg
  have hstat : statRequest path c = (.ok ⟨mode, size, time⟩, c.afterStat path rest) := by
    rw [statRequest, bind_of_ok _ (request_stored_iff.mpr ⟨hstored, rfl⟩), bind_of_ok _ hmsg]
    rfl
  rw [syncReadmode, bind_of_ok _ hstat]
  rfl

theorem syncReadmode_ok (h : syncReadmode path c = (.ok mode, c')) :
    ∃ rest, StatReply path c mode rest := by
  obtain ⟨stat, c₁, hrun, hpure⟩ := (bind_ok_iff _ _ _ _ _).mp h
  cases hpure
  obtain ⟨_, c₂, hrequest, hrest⟩ := (bind_ok_iff _ _ _ _ _).mp hrun
  obtain ⟨msg, c₃, hmsg, hstat⟩ := (bind_ok_iff _ _ _ _ _).mp hrest
  obtain ⟨hstored, rfl⟩ := request_stored_iff.mp hrequest
  rcases hread : PaxAdb.readx (4 * 4) ((c.put (header ID_STAT path)).put path).arrivals with
    _ | ⟨bytes, rest⟩
  · rw [readMsg_of_none (by decide) hread] at hmsg
    cases hmsg
  rw [readMsg_of_some (by decide) hread] at hmsg
  cases hmsg
  have hbytes := encodeWords_decodeWords 4 bytes (readx_some _ _ hread).1
  refine ⟨rest, hstored, ?_⟩
  generalize decodeWords bytes = words at hstat hbytes
  split at hstat
  next id mode size time =>
    split at hstat
    next hid =>
      cases hstat
      exact ⟨size, time, hread.trans (by rw [← hbytes, hid])⟩
    next => cases hstat
  next => cases hstat

theorem StatReply.arrived {rest : List ReadResult} (h : StatReply path c mode rest) :
    ∃ size time, arrived c.arrivals =
      encodeWords [ID_STAT, mode, size, time] ++ PaxAdb.arrived rest := by
  obtain ⟨-, size, time, hread⟩ := h
  exact ⟨size, time, (readx_some _ _ hread).2⟩

theorem syncUnlink_ok (h : syncUnlink path c = (.ok (), c')) :
    (PaxAdb.writex (header ID_ULNK path) c.results).ok = true ∧
      ∃ msglen, arrived c.arrivals = encodeWords [ID_OKAY, msglen] ++ arrived c'.arrivals := by
  obtain ⟨_, c₁, hrequest, hrest⟩ := (bind_ok_iff _ _ _ _ _).mp h
  obtain ⟨msg, c₂, hmsg, hend⟩ := (bind_ok_iff _ _ _ _ _).mp hrest
  obtain ⟨hstored, rfl⟩ := request_stored_iff.mp hrequest
  obtain ⟨-, harr, -⟩ := readMsg_ok (by decide) hmsg
  refine ⟨(Bool.and_eq_true_iff.mp hstored).1, ?_⟩
  split at hend
  next id msglen =>
    split at hend
    next hid =>
      cases hend
      rw [hid] at harr
      exact ⟨msglen, harr⟩
    next => cases hend
  next => cases hend

theorem syncUnlink_unwritten (h : (PaxAdb.writex (header ID_ULNK path) c.results).ok ≠ true) :
    syncUnlink path c =
      (.error (.ret (-1)), c.wrote (PaxAdb.writex (header ID_ULNK path) c.results)) := by
  have hfails := writex_apply (header ID_ULNK path) c
  rw [if_neg h] at hfails
  exact bind_of_error _ (bind_of_error _ hfails)

theorem syncUnlink_sends (h : (PaxAdb.writex (header ID_ULNK path) c.results).ok = true) :
    Logs [path] (c.put (header ID_ULNK path)) (syncUnlink path c).2 := by
  have hwrote : (writex (header ID_ULNK path) c).2 = c.put (header ID_ULNK path) := by
    rw [writex_stored_iff.mpr ⟨h, rfl⟩]
  rw [← hwrote]
  refine Proc.Within.bind_after
    (Proc.Within.bind_after (toRefl.refl _) fun _ => writex_logs (by simp))
    fun _ => .bind (readMsg_logs 2 (by decide)) fun msg => ?_
  split
  · exact .ite (fun _ => .pure _) fun _ => .exit _
  · exact .exit _

theorem unlinkEnd_apply (path : Path) (c : Client) :
    unlinkEnd path c =
      (match (syncUnlink path c).1 with
        | .ok () => .ok ()
        | .error _ => .error (.ret 1), (syncQuit (syncUnlink path c).2).2) := by
  rw [unlinkEnd, bind_of_ok _ (attempt_apply _ _)]
  cases (syncUnlink path c).1 <;> rfl

theorem doSyncUnlink_connected (h : c.connected = true) :
    doSyncUnlink path c =
      if NamesDirectory (syncReadmode path c).1 then
        (.error (.ret 1), (syncQuit (syncReadmode path c).2).2)
      else unlinkEnd path (syncReadmode path c).2 := by
  have hconnect : adbConnect c = (.ok (), c) := if_pos h
  rw [doSyncUnlink, bind_of_ok _ hconnect, bind_of_ok _ (attempt_apply _ _)]
  split <;> rfl

theorem doSyncUnlink_unconnected (h : c.connected ≠ true) :
    doSyncUnlink path c = (.error (.ret 1), c) := by
  have hconnect : adbConnect c = (.error (.ret 1), c) := if_neg h
  rw [doSyncUnlink, bind_of_error _ hconnect]

end Exchanges

section Safety

variable {rpath : Path} {c : Client}

def UlnkWritten (rpath : Path) (c : Client) : Prop :=
  ⟨header ID_ULNK rpath, true⟩ ∈ (doSyncUnlink rpath c).2.sent.drop c.sent.length

/-- `ULNK` is sent only when a `STAT` reply has been decoded that does not name a directory, and the
result is 0 only when the reply behind that one is `OKAY`. -/
structure Careful (rpath : Path) (c : Client) : Prop where
  looks : UlnkWritten rpath c → ∃ mode size time rest, (syncReadmode rpath c).1 = .ok mode ∧
    arrived c.arrivals = encodeWords [ID_STAT, mode, size, time] ++ rest ∧ ¬S_ISDIR mode
  listens : returned (doSyncUnlink rpath c) = some 0 → ∃ mode size time msglen rest,
    arrived c.arrivals =
      encodeWords [ID_STAT, mode, size, time] ++ (encodeWords [ID_OKAY, msglen] ++ rest)

def Writable (rpath : Path) (c : Client) : Prop :=
  (PaxAdb.writex (header ID_ULNK rpath) (syncReadmode rpath c).2.results).ok = true

def firstMessages (rpath : Path) : List (List Byte) :=
  [header ID_STAT rpath, rpath, encodeWords [ID_QUIT, 0]]

theorem syncReadmode_first (rpath : Path) (c : Client) :
    Logs (firstMessages rpath) c (syncReadmode rpath c).2 :=
  syncReadmode_logs (by simp [firstMessages]) (by simp [firstMessages]) c

theorem syncQuit_first (rpath : Path) (c : Client) : Logs (firstMessages rpath) c (syncQuit c).2 :=
  syncQuit_logs (by simp [firstMessages]) c

theorem ulnkWritten_of_error {e : Stop} (hconnected : c.connected = true)
    (he : (syncReadmode rpath c).1 = .error e) (hwrite : Writable rpath c) :
    UlnkWritten rpath c := by
  have hdir : ¬NamesDirectory (syncReadmode rpath c).1 := by
    rw [he]
    exact id
  obtain ⟨new₁, hsent₁, -⟩ := syncReadmode_first rpath c
  obtain ⟨new₂, hsent₂, -⟩ := syncUnlink_sends hwrite
  obtain ⟨new₃, hsent₃, -⟩ := syncQuit_first rpath (syncUnlink rpath (syncReadmode rpath c).2).2
  rw [UlnkWritten, doSyncUnlink_connected hconnected, if_neg hdir, unlinkEnd_apply]
  dsimp only
  rw [hsent₃, hsent₂, Client.put]
  dsimp only
  rw [hsent₁]
  simp

/-- The request goes out only if the first reply does not name a directory and the header can be
written. -/
theorem writable_of_ulnkWritten (hnul : 0 ∉ rpath) (h : UlnkWritten rpath c) :
    c.connected = true ∧ ¬NamesDirectory (syncReadmode rpath c).1 ∧ Writable rpath c := by
  have hfirst := syncReadmode_first rpath c
  have hheader : header ID_ULNK rpath ∉ firstMessages rpath := header_ulnk_not_mem hnul
  by_cases hconnected : c.connected = true
  · rw [UlnkWritten, doSyncUnlink_connected hconnected] at h
    by_cases hdir : NamesDirectory (syncReadmode rpath c).1
    · rw [if_pos hdir] at h
      have hquit := syncQuit_first rpath (syncReadmode rpath c).2
      exact absurd h (Logs.not_mem (toIsTrans.trans _ _ _ hfirst hquit) hheader)
    · refine ⟨hconnected, hdir, ?_⟩
      by_contra hwrite
      rw [if_neg hdir, unlinkEnd_apply, syncUnlink_unwritten hwrite] at h
      have hfails : Logs (firstMessages rpath) (syncReadmode rpath c).2
          ((syncReadmode rpath c).2.wrote
            (PaxAdb.writex (header ID_ULNK rpath) (syncReadmode rpath c).2.results)) := by
        refine ⟨[_], rfl, fun e he hok => ?_⟩
        rw [mem_singleton.mp he] at hok
        exact absurd hok hwrite
      have hquit := syncQuit_first rpath ((syncReadmode rpath c).2.wrote
        (PaxAdb.writex (header ID_ULNK rpath) (syncReadmode rpath c).2.results))
      have hall := toIsTrans.trans _ _ _ hfirst
        (toIsTrans.trans _ _ _ hfails hquit)
      exact absurd h (Logs.not_mem hall hheader)
  · rw [UlnkWritten, doSyncUnlink_unconnected hconnected, drop_length] at h
    cases h

theorem syncUnlink_of_returned (h : returned (doSyncUnlink rpath c) = some 0) :
    c.connected = true ∧ ∃ c', syncUnlink rpath (syncReadmode rpath c).2 = (.ok (), c') := by
  by_cases hconnected : c.connected = true
  · refine ⟨hconnected, ?_⟩
    rw [doSyncUnlink_connected hconnected] at h
    split at h
    next => cases h
    next =>
      rw [unlinkEnd_apply] at h
      rcases hunlink : syncUnlink rpath (syncReadmode rpath c).2 with ⟨e | _, c'⟩
      · rw [hunlink] at h
        cases h
      · exact ⟨c', rfl⟩
  · rw [doSyncUnlink_unconnected hconnected] at h
    cases h

/-- `do_sync_unlink` is careful exactly when the device answers the first request with a `STAT`
record or nothing can be written any more. -/
theorem unlink_careful_iff (rpath : Path) (c : Client) (hnul : 0 ∉ rpath) :
    Careful rpath c ↔
      (c.connected = true → Writable rpath c → ∃ mode rest, StatReply rpath c mode rest) := by
  constructor
  · intro h hconnected hwrite
    cases hread : (syncReadmode rpath c).1 with
    | ok mode => exact ⟨mode, syncReadmode_ok (Prod.ext hread rfl)⟩
    | error e =>
      obtain ⟨mode, _, _, _, hmode, -⟩ :=
        h.looks (ulnkWritten_of_error hconnected hread hwrite)
      cases hread.symm.trans hmode
  · intro h
    refine ⟨fun hwritten => ?_, fun hret => ?_⟩
    · obtain ⟨hconnected, hdir, hwrite⟩ := writable_of_ulnkWritten hnul hwritten
      obtain ⟨mode, rest, hreply⟩ := h hconnected hwrite
      obtain ⟨size, time, harr⟩ := hreply.arrived
      have hmode := syncReadmode_stat hreply
      refine ⟨mode, size, time, _, by rw [hmode], harr, fun hisdir => ?_⟩
      rw [hmode] at hdir
      refine hdir ⟨?_, hisdir⟩
      rintro rfl
      cases hisdir
    · obtain ⟨hconnected, c', hunlink⟩ := syncUnlink_of_returned hret
      obtain ⟨hwrite, msglen, hokay⟩ := syncUnlink_ok hunlink
      obtain ⟨mode, rest, hreply⟩ := h hconnected hwrite
      obtain ⟨size, time, harr⟩ := hreply.arrived
      rw [syncReadmode_stat hreply] at hokay
      change PaxAdb.arrived rest = _ at hokay
      rw [hokay] at harr
      exact ⟨mode, size, time, msglen, _, harr⟩

/-- A file is removed once its mode is known. -/
theorem unlink_careful_file :
    0 ∉ text "/f" ∧ Careful (text "/f") (.hearing [ID_STAT, 0x81a4, 1, 0, ID_OKAY, 0]) := by
  refine ⟨by decide, (unlink_careful_iff _ _ (by decide)).mpr fun _ _ => ⟨0x81a4,
    [.data (encodeWords [ID_OKAY, 0])], by decide +kernel, 1, 0, by decide +kernel⟩⟩

/-- The device answers `STAT` with `FAIL` and a message of 16 bytes. The request is sent, and the
end of the message is taken for the answer to it. -/
theorem unlink_blind :
    returned (doSyncUnlink (text "/f") (.hearing [ID_FAIL, 16, 0, 0, ID_OKAY, 0])) = some 0 ∧
      UlnkWritten (text "/f") (.hearing [ID_FAIL, 16, 0, 0, ID_OKAY, 0]) ∧
      ¬Careful (text "/f") (.hearing [ID_FAIL, 16, 0, 0, ID_OKAY, 0]) := by
  have hwritten : UlnkWritten (text "/f") (.hearing [ID_FAIL, 16, 0, 0, ID_OKAY, 0]) := by
    unfold UlnkWritten
    decide +kernel
  have herror : (syncReadmode (text "/f") (.hearing [ID_FAIL, 16, 0, 0, ID_OKAY, 0])).1 =
      .error (.ret (-1)) := by decide +kernel
  refine ⟨by decide +kernel, hwritten, fun h => ?_⟩
  obtain ⟨mode, _, _, _, hmode, -⟩ := h.looks hwritten
  cases herror.symm.trans hmode

end Safety

end PaxAdb.Sync
