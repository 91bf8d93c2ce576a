import PaxAdb.SyncPull

/-!
# What a push returns

`write_data_file` sends what it can read of a local file and reports a failure with its result,
which `sync_send` does not look at. The device is told that the file is done in any case, and a push
returns 0 when the device accepts what it has got.
-/

namespace PaxAdb.Sync

open LittleEndian List Proc

section Spec

def fileChunks : List FileRead → List Byte → List (List Byte)
  | [], _ => []
  | .eintr :: reads, left => fileChunks reads left
  | .error :: _, _ => []
  | .count n :: reads, left =>
      let bytes := left.take (min (n + 1) SYNC_DATA_MAX)
      if bytes = [] then [] else bytes :: fileChunks reads (left.drop bytes.length)

def sentLog : List (List Byte) → List WriteResult → List Sent
  | [], _ => []
  | msg :: msgs, results =>
      let w := PaxAdb.writex msg results
      ⟨w.bytes, w.ok⟩ :: if w.ok then sentLog msgs w.rest else []

def Opens (calls : List CallResult) (showProgress : Bool) : Prop :=
  calls.headD .ok = .ok ∧ (showProgress = true → calls.tail.headD .ok = .ok)

instance (calls : List CallResult) (showProgress : Bool) : Decidable (Opens calls showProgress) :=
  inferInstanceAs (Decidable (_ ∧ _))

def filePayloads (lpath : Path) (showProgress : Bool) (c : Client) : List (List Byte) :=
  if Opens c.calls showProgress then fileChunks c.reads ((c.content lpath).getD []) else []

theorem length_of_mem_fileChunks {reads : List FileRead} {left bytes : List Byte}
    (h : bytes ∈ fileChunks reads left) : 1 ≤ bytes.length ∧ bytes.length ≤ SYNC_DATA_MAX := by
  induction reads generalizing left with
  | nil => cases h
  | cons r reads ih =>
    cases r with
    | eintr => exact ih h
    | error => cases h
    | count n =>
      simp only [fileChunks] at h
      split at h
      next => cases h
      next hne =>
        rcases mem_cons.mp h with rfl | h
        · refine ⟨length_pos_iff.mpr hne, ?_⟩
          rw [length_take]
          omega
        · exact ih h

theorem sentLog_eq_whole_iff (msgs msgs' : List (List Byte)) (results : List WriteResult) :
    sentLog msgs results = msgs'.map (⟨·, true⟩) ↔
      storeAll msgs results = true ∧ msgs = msgs' := by
  induction msgs generalizing msgs' results with
  | nil =>
    cases msgs' with
    | nil => exact iff_of_true rfl ⟨rfl, rfl⟩
    | cons msg' msgs' => exact iff_of_false nofun (fun h => nomatch h.2)
  | cons msg msgs ih =>
    cases msgs' with
    | nil => exact iff_of_false nofun (fun h => nomatch h.2)
    | cons msg' msgs' =>
      simp only [sentLog, storeAll, map_cons, cons.injEq, Sent.mk.injEq, Bool.and_eq_true]
      by_cases hok : (PaxAdb.writex msg results).ok = true
      · rw [if_pos hok, ih, (writex_ok_iff msg results).mp hok]
        simp only [hok, true_and, and_true]
        tauto
      · refine iff_of_false (fun h => hok h.1.2) (fun h => hok h.1.1)

end Spec

section Data

/-- The connection between two states: `msgs` were to be written, and nothing was read. -/
structure Writes (msgs : List (List Byte)) (c c' : Client) : Prop where
  sent : c'.sent = c.sent ++ sentLog msgs c.results
  arrivals : c'.arrivals = c.arrivals

theorem writeDataLoop_writes (fuel : ℕ) (left : List Byte) (c : Client)
    (hfuel : c.reads.length < fuel) :
    Writes ((fileChunks c.reads left).map dataMsg) c (writeDataLoop fuel left c).2 := by
  induction fuel generalizing left c with
  | zero => omega
  | succ fuel ih =>
    rw [writeDataLoop]
    cases hreads : c.reads with
    | nil =>
      have hread : nextRead c = (.ok .error, c) := by rw [nextRead, hreads]
      rw [bind_of_ok _ hread]
      exact ⟨(append_nil _).symm, rfl⟩
    | cons r reads =>
      have hread : nextRead c = (.ok r, { c with reads := reads }) := by rw [nextRead, hreads]
      rw [bind_of_ok _ hread]
      have hlt : reads.length < fuel := by
        rw [hreads, length_cons] at hfuel
        omega
      cases r with
      | error => exact ⟨(append_nil _).symm, rfl⟩
      | eintr =>
        have hrest := ih left { c with reads := reads } hlt
        exact ⟨hrest.sent, hrest.arrivals⟩
      | count n =>
        simp only [fileChunks]
        generalize left.take (min (n + 1) SYNC_DATA_MAX) = bytes
        by_cases hnil : bytes = []
        · rw [if_pos hnil, if_pos hnil]
          exact ⟨(append_nil _).symm, rfl⟩
        rw [if_neg hnil, if_neg hnil, map_cons]
        generalize hw : PaxAdb.writex (dataMsg bytes) c.results = w
        have hwrite : tryWritex (dataMsg bytes) { c with reads := reads } =
            (.ok w.ok, Client.wrote { c with reads := reads } w) := by rw [← hw]; rfl
        rw [bind_of_ok _ hwrite]
        by_cases hok : w.ok = true
        · have hrest := ih (left.drop bytes.length)
            (Client.wrote { c with reads := reads } w) hlt
          rw [if_pos hok]
          refine ⟨hrest.sent.trans ?_, hrest.arrivals⟩
          simp only [sentLog, hw, if_pos hok]
          exact append_assoc _ _ _
        · rw [if_neg hok]
          refine ⟨?_, rfl⟩
          simp only [sentLog, hw, if_neg hok]
          rfl

theorem writeDataFile_writes (lpath : Path) (showProgress : Bool) (c : Client) :
    Writes ((filePayloads lpath showProgress c).map dataMsg) c
      (writeDataFile lpath showProgress c).2 := by
  rw [writeDataFile, bind_of_ok _ (nextCall_apply c), filePayloads]
  by_cases hopen : c.calls.headD .ok = .ok
  · rw [if_neg (not_not.mpr hopen)]
    cases showProgress with
    | false =>
      have hopens : Opens c.calls false := ⟨hopen, nofun⟩
      rw [if_pos hopens]
      have hloop := writeDataLoop_writes (c.reads.length + 1) ((c.content lpath).getD [])
        { c with calls := c.calls.tail } (Nat.lt_succ_self _)
      exact ⟨hloop.sent, hloop.arrivals⟩
    | true =>
      rw [if_pos rfl, bind_of_ok _ (nextCall_apply _)]
      by_cases hstat : c.calls.tail.headD .ok = .ok
      · have hopens : Opens c.calls true := ⟨hopen, fun _ => hstat⟩
        rw [if_pos hopens, if_neg (not_not.mpr hstat)]
        have hloop := writeDataLoop_writes (c.reads.length + 1) ((c.content lpath).getD [])
          { c with calls := c.calls.tail.tail } (Nat.lt_succ_self _)
        exact ⟨hloop.sent, hloop.arrivals⟩
      · have hopens : ¬Opens c.calls true := fun h => hstat (h.2 rfl)
        rw [if_neg hopens, if_pos hstat]
        exact ⟨(append_nil _).symm, rfl⟩
  · have hopens : ¬Opens c.calls showProgress := fun h => hopen h.1
    rw [if_pos hopen, if_neg hopens]
    exact ⟨(append_nil _).symm, rfl⟩

theorem writex_apply (bytes : List Byte) (c : Client) :
    writex bytes c =
      (if (PaxAdb.writex bytes c.results).ok then .ok () else .error (.ret (-1)),
        c.wrote (PaxAdb.writex bytes c.results)) := by
  have hwrite : tryWritex bytes c = (.ok _, c.wrote _) := rfl
  rw [writex, bind_of_ok _ hwrite]
  split <;> rfl

theorem writex_sent {bytes : List Byte} {c c' : Client} (h : writex bytes c = (.ok (), c')) :
    c'.sent = c.sent ++ [⟨bytes, true⟩] ∧ c'.arrivals = c.arrivals := by
  rw [writex_apply] at h
  by_cases hok : (PaxAdb.writex bytes c.results).ok = true
  · rw [if_pos hok] at h
    cases h
    refine ⟨?_, rfl⟩
    rw [Client.wrote, hok, (writex_ok_iff _ _).mp hok]
  · rw [if_neg hok] at h
    cases h

end Data

section Truth

variable {lpath rpath target : Path} {mtime mode : UInt32} {showProgress : Bool}
  {data : List Byte} {c c₁ c' : Client}

def requestLog (target : Path) (mode : UInt32) : List Sent :=
  [⟨encodeWords [ID_SEND, UInt32.ofNat (target.length + (modeText mode).length)], true⟩,
    ⟨target, true⟩, ⟨modeText mode, true⟩]

/-- Between `SEND` and `DONE` all the bytes of the file were sent in payloads of the right size, and
the device has answered `OKAY`. The result of the final `QUIT` does not matter. -/
def Pushed (target : Path) (mode mtime : UInt32) (data : List Byte) (c c' : Client) : Prop :=
  ∃ (payloads : List (List Byte)) (quit : Sent),
    c'.sent = c.sent ++ (requestLog target mode ++
      (payloads.map (fun p => ⟨dataMsg p, true⟩) ++
        [⟨encodeWords [ID_DONE, mtime], true⟩, quit])) ∧
    payloads.flatten = data ∧
    (∀ p ∈ payloads, 1 ≤ p.length ∧ p.length ≤ SYNC_DATA_MAX) ∧
    ∃ header rest msglen, PaxAdb.readx 8 c.arrivals = some (header, rest) ∧
      decodeWords header = [ID_OKAY, msglen]

/-- `do_sync_push` of a regular file returns 0 only if the whole file was sent and accepted. -/
def PushTruth (copyLocalDirRemote : Path → Path → Call Unit) (lpath rpath : Path)
    (showProgress : Bool) (c : Client) : Prop :=
  ∀ mode mtime data, c.stat lpath = some (mode, mtime) → S_ISREG mode →
    c.content lpath = some data →
    returned (doSyncPush copyLocalDirRemote lpath rpath showProgress c) = some 0 →
    ∃ target c₁, pushTarget lpath rpath c = (.ok target, c₁) ∧
      Pushed target mode mtime data c₁
        (doSyncPush copyLocalDirRemote lpath rpath showProgress c).2

/-- The file opens, what is read of it before an error is all of it, and every data message goes
out. -/
def WholeFile (lpath : Path) (showProgress : Bool) (data : List Byte) (c : Client) : Prop :=
  (filePayloads lpath showProgress c).flatten = data ∧
    storeAll ((filePayloads lpath showProgress c).map dataMsg) c.results = true

theorem orReturn1_exits {α : Type} (x : Call α) : Proc.Exits (· ≠ .ret 0) (orReturn1 x) := by
  intro s e s' h
  rcases hx : x s with ⟨e' | a, s''⟩
  · rw [orReturn1, exitAs_of_error _ hx] at h
    cases e' with
    | ret code =>
      cases h
      change Stop.ret 1 ≠ .ret 0
      decide
    | exhausted =>
      cases h
      change Stop.exhausted ≠ .ret 0
      decide
  · rw [orReturn1, exitAs_of_ok _ hx] at h
    cases h

theorem orReturn1_ok {α : Type} {x : Call α} {a : α} (h : orReturn1 x c = (.ok a, c')) :
    x c = (.ok a, c') := by
  rcases hx : x c with ⟨e | b, c''⟩
  · rw [orReturn1, exitAs_of_error _ hx] at h
    cases h
  · rw [orReturn1, exitAs_of_ok _ hx] at h
    exact h

theorem ok_of_returned {x : Call Unit} (hx : Proc.Exits (· ≠ .ret 0) x)
    (h : returned (x c) = some 0) : ∃ c', x c = (.ok (), c') := by
  rcases hxc : x c with ⟨e | a, c'⟩
  · rw [hxc] at h
    cases e with
    | ret code =>
      cases h
      exact absurd rfl (hx _ _ _ hxc)
    | exhausted => cases h
  · exact ⟨c', rfl⟩

theorem pushEnd_exits (lpath rpath : Path) (mtime mode : UInt32) (showProgress : Bool) :
    Proc.Exits (· ≠ .ret 0) (pushEnd lpath rpath mtime mode showProgress) :=
  .bind (.bind (orReturn1_exits _) (fun _ => .pure _))
    (fun _ => .bind (orReturn1_exits _) (fun _ => syncQuit_total.exits _))

theorem doSyncPush_file (copyLocalDirRemote : Path → Path → Call Unit)
    (hstat : c.stat lpath = some (mode, mtime)) (hreg : S_ISREG mode) :
    doSyncPush copyLocalDirRemote lpath rpath showProgress c =
      if c.connected then pushEnd lpath rpath mtime mode showProgress c
      else (.error (.ret 1), c) := by
  have hdir : ¬S_ISDIR mode := by
    intro hdir
    cases hreg.symm.trans hdir
  by_cases hconnected : c.connected = true
  · have hconnect : adbConnect c = (.ok (), c) := if_pos hconnected
    rw [doSyncPush, bind_of_ok _ hconnect, bind_of_ok _ (state_apply c), hstat, if_pos hconnected]
    change (if S_ISDIR mode then _ else _ : Call Unit) c = _
    rw [if_neg hdir]
  · have hconnect : adbConnect c = (.error (.ret 1), c) := if_neg hconnected
    rw [doSyncPush, bind_of_error _ hconnect, if_neg hconnected]

theorem dataMsg_injective : Function.Injective dataMsg := by
  intro a b h
  have hdrop := congrArg (drop 8) h
  exact hdrop

theorem sendRequest_sent {c₂ : Client} (h : sendRequest target mode c₁ = (.ok (), c₂)) :
    c₂.sent = c₁.sent ++ requestLog target mode ∧ c₂.arrivals = c₁.arrivals := by
  rw [sendRequest] at h
  split at h
  · cases h
  · obtain ⟨_, d₁, h₁, h⟩ := (bind_ok_iff _ _ _ _ _).mp h
    obtain ⟨_, d₂, h₂, h₃⟩ := (bind_ok_iff _ _ _ _ _).mp h
    obtain ⟨hsent₁, harr₁⟩ := writex_sent h₁
    obtain ⟨hsent₂, harr₂⟩ := writex_sent h₂
    obtain ⟨hsent₃, harr₃⟩ := writex_sent h₃
    refine ⟨?_, harr₃.trans (harr₂.trans harr₁)⟩
    rw [hsent₃, hsent₂, hsent₁, append_assoc, append_assoc]
    rfl

theorem sendReply_ok (h : sendReply c = (.ok (), c')) :
    c'.sent = c.sent ∧ ∃ header rest msglen, PaxAdb.readx 8 c.arrivals = some (header, rest) ∧
      decodeWords header = [ID_OKAY, msglen] := by
  rcases readx_header c.arrivals with hnone | ⟨header, rest, id, msglen, hsome, hmsg⟩
  · rw [sendReply, bind_of_error _ (readMsg_of_none (by decide) hnone)] at h
    cases h
  · rw [sendReply, bind_of_ok _ (readMsg_of_some (by decide) hsome), hmsg] at h
    change (if id = ID_OKAY then _ else _ : Call Unit) _ = _ at h
    by_cases hid : id = ID_OKAY
    · rw [if_pos hid] at h
      cases h
      exact ⟨rfl, header, rest, msglen, hsome, by rw [hmsg, hid]⟩
    · rw [if_neg hid] at h
      split at h
      · obtain ⟨_, _, _, h⟩ := (bind_ok_iff _ _ _ _ _).mp h
        cases h
      · cases h

theorem pushEnd_ok (hreg : S_ISREG mode)
    (h : pushEnd lpath rpath mtime mode showProgress c = (.ok (), c')) :
    ∃ target c₁ c₂ quit, pushTarget lpath rpath c = (.ok target, c₁) ∧
      sendRequest target mode c₁ = (.ok (), c₂) ∧
      c'.sent = c₁.sent ++ (requestLog target mode ++
        (sentLog ((filePayloads lpath showProgress c₂).map dataMsg) c₂.results ++
          [⟨encodeWords [ID_DONE, mtime], true⟩, quit])) ∧
      ∃ header rest msglen, PaxAdb.readx 8 c₁.arrivals = some (header, rest) ∧
        decodeWords header = [ID_OKAY, msglen] := by
  obtain ⟨target, c₁, htarget, h⟩ := (bind_ok_iff _ _ _ _ _).mp h
  obtain ⟨_, c₅, hsend, hquit⟩ := (bind_ok_iff _ _ _ _ _).mp h
  obtain ⟨_, c₂, hrequest, hsend⟩ := (bind_ok_iff _ _ _ _ _).mp (orReturn1_ok hsend)
  rw [if_pos hreg] at hsend
  obtain ⟨_, c₃, hfile, hsend⟩ := (bind_ok_iff _ _ _ _ _).mp hsend
  obtain ⟨_, c₄, hdone, hreply⟩ := (bind_ok_iff _ _ _ _ _).mp hsend
  obtain ⟨_, c₆, hwrite, hquit⟩ := (bind_ok_iff _ _ _ _ _).mp hquit
  cases hwrite
  cases hquit
  obtain ⟨hsent₂, harr₂⟩ := sendRequest_sent hrequest
  have hwrites := writeDataFile_writes lpath showProgress c₂
  rw [hfile] at hwrites
  obtain ⟨hsent₄, harr₄⟩ := writex_sent hdone
  obtain ⟨hsent₅, hokay⟩ := sendReply_ok hreply
  rw [harr₄, hwrites.arrivals, harr₂] at hokay
  generalize hq : PaxAdb.writex (encodeWords [ID_QUIT, 0]) c₅.results = q
  refine ⟨target, c₁, c₂, ⟨q.bytes, q.ok⟩, htarget, hrequest, ?_, hokay⟩
  rw [Client.wrote]
  rw [hsent₅, hsent₄, hwrites.sent, hsent₂]
  simp only [append_assoc, cons_append, nil_append]

/-- A push that returns 0 is complete exactly when the whole file was read and sent. -/
theorem pushed_iff (hreg : S_ISREG mode) {c₂ : Client}
    (h : pushEnd lpath rpath mtime mode showProgress c = (.ok (), c'))
    (htarget : pushTarget lpath rpath c = (.ok target, c₁))
    (hrequest : sendRequest target mode c₁ = (.ok (), c₂)) :
    Pushed target mode mtime data c₁ c' ↔ WholeFile lpath showProgress data c₂ := by
  obtain ⟨target', c₁', c₂', quit, htarget', hrequest', hsent, hokay⟩ := pushEnd_ok hreg h
  cases htarget.symm.trans htarget'
  cases hrequest.symm.trans hrequest'
  constructor
  · rintro ⟨payloads, quit', hlog, hflat, _⟩
    rw [hsent, append_cancel_left_eq, append_cancel_left_eq] at hlog
    have hwhole := (append_inj' hlog rfl).1
    have hmap : payloads.map (fun p => (⟨dataMsg p, true⟩ : Sent)) =
        (payloads.map dataMsg).map (⟨·, true⟩) := by
      rw [map_map]
      rfl
    rw [hmap, sentLog_eq_whole_iff] at hwhole
    obtain ⟨hstored, hpayloads⟩ := hwhole
    rw [dataMsg_injective.list_map.eq_iff] at hpayloads
    exact ⟨by rw [hpayloads, hflat], hstored⟩
  · rintro ⟨hflat, hstored⟩
    refine ⟨filePayloads lpath showProgress c₂, quit, ?_, hflat, ?_, hokay⟩
    · rw [hsent, (sentLog_eq_whole_iff _ _ _).mpr ⟨hstored, rfl⟩, map_map]
      rfl
    · intro p hp
      rw [filePayloads] at hp
      split at hp
      · exact length_of_mem_fileChunks hp
      · cases hp

/-- `do_sync_push` of a regular file tells the truth exactly when, whenever it returns 0, the file
was opened, read to its end and sent. -/
theorem push_truthful_iff (copyLocalDirRemote : Path → Path → Call Unit) (lpath rpath : Path)
    (showProgress : Bool) (c : Client) :
    PushTruth copyLocalDirRemote lpath rpath showProgress c ↔
      ∀ mode mtime data target c₁ c₂, c.stat lpath = some (mode, mtime) → S_ISREG mode →
        c.content lpath = some data →
        returned (doSyncPush copyLocalDirRemote lpath rpath showProgress c) = some 0 →
        pushTarget lpath rpath c = (.ok target, c₁) →
        sendRequest target mode c₁ = (.ok (), c₂) →
        WholeFile lpath showProgress data c₂ := by
  constructor
  · intro htruth mode mtime data target c₁ c₂ hstat hreg hcontent hzero htarget hrequest
    obtain ⟨target', c₁', htarget', hpushed⟩ := htruth mode mtime data hstat hreg hcontent hzero
    cases htarget.symm.trans htarget'
    rw [doSyncPush_file copyLocalDirRemote hstat hreg] at hzero hpushed
    split at hzero
    next hconnected =>
      rw [if_pos hconnected] at hpushed
      obtain ⟨c', hend⟩ := ok_of_returned (pushEnd_exits lpath rpath mtime mode showProgress) hzero
      rw [hend] at hpushed
      exact (pushed_iff hreg hend htarget hrequest).mp hpushed
    next => cases hzero
  · intro hwhole mode mtime data hstat hreg hcontent hzero
    have hwhole := fun target c₁ c₂ =>
      hwhole mode mtime data target c₁ c₂ hstat hreg hcontent hzero
    rw [doSyncPush_file copyLocalDirRemote hstat hreg] at hzero ⊢
    split at hzero
    next hconnected =>
      rw [if_pos hconnected]
      obtain ⟨c', hend⟩ := ok_of_returned (pushEnd_exits lpath rpath mtime mode showProgress) hzero
      obtain ⟨target, c₁, c₂, quit, htarget, hrequest, _⟩ := pushEnd_ok hreg hend
      rw [hend]
      exact ⟨target, c₁, htarget, (pushed_iff hreg hend htarget hrequest).mpr
        (hwhole target c₁ c₂ htarget hrequest)⟩
    next => cases hzero

def Client.unreadable : Client :=
  { Client.hearing [ID_STAT, 0, 0, 0, ID_OKAY, 0] with
    calls := [.failed]
    content := fun _ => some [1]
    stat := fun _ => some (0x81a4, 0) }

/-- The push of a file that cannot be opened returns 0 after `SEND` and `DONE` alone. -/
theorem push_unreadable_returns_zero :
    returned (doSyncPush (fun _ _ => pure ()) (text "f") (text "/f") false .unreadable) = some 0 ∧
    ¬PushTruth (fun _ _ => pure ()) (text "f") (text "/f") false .unreadable := by
  have hzero : returned (doSyncPush (fun _ _ => pure ()) (text "f") (text "/f") false .unreadable) =
      some 0 := by decide +kernel
  refine ⟨hzero, fun htruth => ?_⟩
  obtain ⟨target, c₁, htarget, payloads, quit, hsent, hflat, _⟩ :=
    htruth 0x81a4 0 [1] rfl (by decide) rfl hzero
  have hlength := congrArg length hsent
  have hlength₁ : (pushTarget (text "f") (text "/f") .unreadable).2.sent.length = 2 := by
    decide +kernel
  have hlength' : (doSyncPush (fun _ _ => pure ()) (text "f") (text "/f") false
      .unreadable).2.sent.length = 7 := by decide +kernel
  rw [htarget] at hlength₁
  change c₁.sent.length = 2 at hlength₁
  simp only [hlength', length_append, length_map, requestLog, length_cons, length_nil] at hlength
  have hnil : payloads = [] := length_eq_zero_iff.mp (by omega)
  rw [hnil] at hflat
  cases hflat

end Truth

end PaxAdb.Sync
