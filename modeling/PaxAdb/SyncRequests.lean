import PaxAdb.SyncUnlink

/-!
# What is sent behind the request for a mode

`do_sync_unlink` and `do_sync_push` ask for the mode of the remote path first. Unless it names a
directory, the request that follows is `ULNK` or `SEND` for that path; a file that is pushed to a
directory goes below it.
-/

namespace PaxAdb.Sync

open LittleEndian List Proc

section Requests

variable {lpath path target : Path} {mode lmode mtime : UInt32} {showProgress : Bool}
  {rest : List ReadResult} {c c' : Client} {log : List Sent}

/-- What is sent behind the exchange for the mode. -/
def sentBehind (c c' : Client) : List Sent := c'.sent.drop (c.sent.length + 2)

theorem sentBehind_eq (h : c'.sent = (c.afterStat path rest).sent ++ log) :
    sentBehind c c' = log := by
  have hlen : (c.afterStat path rest).sent.length = c.sent.length + 2 := by
    simp [Client.afterStat, Client.put, Client.ask]
  rw [sentBehind, h, ← hlen, drop_left]

theorem syncQuit_sent (c : Client) : ∃ quit, (syncQuit c).2.sent = c.sent ++ [quit] ∧
    (quit.ok = true → quit.bytes = encodeWords [ID_QUIT, 0]) := ⟨_, rfl, (writex_ok_iff _ _).mp⟩

/-- `ULNK` follows the exchange for the mode of anything but a directory. -/
theorem doSyncUnlink_sends_iff (hconnected : c.connected = true)
    (hreply : StatReply path c mode rest) (hwrite : Writable path c) :
    [⟨header ID_ULNK path, true⟩] <+: sentBehind c (doSyncUnlink path c).2 ↔ ¬S_ISDIR mode := by
  have hread := syncReadmode_stat hreply
  rw [Writable, hread] at hwrite
  rw [doSyncUnlink_connected hconnected, hread]
  by_cases hdir : S_ISDIR mode
  · have hnames : NamesDirectory (.ok mode) := by
      refine ⟨?_, hdir⟩
      rintro rfl
      cases hdir
    obtain ⟨quit, hsent, hquit⟩ := syncQuit_sent (c.afterStat path rest)
    rw [if_pos hnames, sentBehind_eq hsent]
    refine iff_of_false (fun hulnk => ?_) (not_not.mpr hdir)
    obtain rfl : ⟨header ID_ULNK path, true⟩ = quit := (cons_prefix_cons.mp hulnk).1
    have hdecode := congrArg decodeWords (hquit rfl)
    rw [header, decodeWords_encodeWords, decodeWords_encodeWords] at hdecode
    exact absurd (cons.inj hdecode).1 (by decide)
  · obtain ⟨new, hsent, -⟩ := syncUnlink_sends hwrite
    obtain ⟨quit, hquit, -⟩ := syncQuit_sent (syncUnlink path (c.afterStat path rest)).2
    rw [if_neg (fun h => hdir h.2), unlinkEnd_apply]
    rw [hsent, Client.put, append_assoc, append_assoc] at hquit
    rw [sentBehind_eq hquit]
    exact iff_of_true (prefix_append _ _) hdir

def Appends (c c' : Client) : Prop := c.sent <+: c'.sent

instance : IsPreorder Client Appends where
  refl _ := prefix_rfl
  trans _ _ _ h h' := h.trans h'

theorem Logs.appends {msgs : List (List Byte)} {α : Type} {x : Call α}
    (h : Proc.Within (Logs msgs) x) : Proc.Within Appends x := by
  refine h.mono ?_
  rintro c c' ⟨new, hsent, -⟩
  exact ⟨new, hsent.symm⟩

theorem readx_appends (room : ℕ) (len : ℤ) : Proc.Within Appends (readx room len) := by
  intro c
  simp only [readx]
  split
  · split <;> exact prefix_rfl
  · exact prefix_rfl

theorem sendReply_appends : Proc.Within Appends sendReply := by
  refine .bind (.bind (readx_appends _ _) fun _ => .pure _) fun msg => ?_
  split
  · refine .ite (fun _ => .pure _) fun _ =>
      .ite (fun _ => .bind ?_ fun _ => .exit _) fun _ => .exit _
    exact .bind (fun c => prefix_rfl) fun _ => .bind (readx_appends _ _) fun _ => .pure _
  · exact .exit _

theorem sendRequest_stored (hlen : target.length ≤ 1024)
    (h : storeAll ((requestLog target lmode).map (·.bytes)) c.results = true) :
    ∃ c₂, sendRequest target lmode c = (.ok (), c₂) := by
  simp only [requestLog, map_cons, map_nil, storeAll, Bool.and_eq_true, and_true] at h
  rw [sendRequest, if_neg (not_lt.mpr hlen), bind_of_ok _ (writex_stored_iff.mpr ⟨h.1, rfl⟩),
    bind_of_ok _ (writex_stored_iff.mpr ⟨h.2.1, rfl⟩)]
  exact ⟨_, writex_stored_iff.mpr ⟨h.2.2, rfl⟩⟩

/-- A request that goes out is followed by the rest of the transfer. -/
theorem pushEnd_appends (mtime : UInt32) (showProgress : Bool) {c₁ c₂ : Client}
    (hreg : S_ISREG lmode)
    (htarget : pushTarget lpath path c = (.ok target, c₁))
    (hrequest : sendRequest target lmode c₁ = (.ok (), c₂)) :
    Appends c₂ (pushEnd lpath path mtime lmode showProgress c).2 := by
  rw [pushEnd, bind_of_ok _ htarget]
  refine Proc.Within.bind_after ?_ fun _ =>
    .bind (Logs.appends (tryWritex_logs (mem_singleton_self _))) fun _ => .pure _
  have hsend : Proc.Within Appends (do
      let _ ← writeDataFile lpath showProgress
      writex (encodeWords [ID_DONE, mtime])
      sendReply) :=
    .bind (fun c => ⟨_, (writeDataFile_writes lpath showProgress c).sent.symm⟩)
      fun _ => .bind (Logs.appends (writex_logs (mem_singleton_self _)))
        fun _ => sendReply_appends
  have hall : syncSend lpath target mtime lmode showProgress c₁ = (do
      let _ ← writeDataFile lpath showProgress
      writex (encodeWords [ID_DONE, mtime])
      sendReply : Call Unit) c₂ := by
    rw [syncSend, bind_of_ok _ hrequest, if_pos hreg]
  have htail := hsend c₂
  rw [← hall] at htail
  rw [orReturn1]
  rcases hrun : syncSend lpath target mtime lmode showProgress c₁ with ⟨e | a, c₃⟩
  · rw [hrun] at htail
    rw [exitAs_of_error _ hrun]
    exact htail
  · rw [hrun] at htail
    rw [exitAs_of_ok _ hrun]
    exact htail

/-- Where a file that is pushed to `path` goes. -/
def destination (lpath path : Path) (mode : UInt32) : Path :=
  if S_ISDIR mode then path ++ [0x2f] ++ baseName lpath else path

theorem pushTarget_stat (lpath : Path) (hreply : StatReply path c mode rest) :
    pushTarget lpath path c = (.ok (destination lpath path mode), c.afterStat path rest) := by
  have hdir : mode ≠ 0 ∧ S_ISDIR mode ↔ S_ISDIR mode := by
    refine and_iff_right_of_imp ?_
    rintro hdir rfl
    cases hdir
  rw [pushTarget, orReturn1, bind_of_ok _ (exitAs_of_ok _ (syncReadmode_stat hreply))]
  simp only [hdir, destination]
  rfl

/-- `SEND` for the path follows exactly when it is no directory and not too long. -/
theorem doSyncPush_sends_iff (copyLocalDirRemote : Path → Path → Call Unit)
    (hconnected : c.connected = true) (hstat : c.stat lpath = some (lmode, mtime))
    (hreg : S_ISREG lmode) (hreply : StatReply path c mode rest)
    (hwrite : storeAll ((requestLog (destination lpath path mode) lmode).map (·.bytes))
      (c.afterStat path rest).results = true) :
    requestLog path lmode <+:
        sentBehind c (doSyncPush copyLocalDirRemote lpath path showProgress c).2 ↔
      ¬S_ISDIR mode ∧ path.length ≤ 1024 := by
  have htarget := pushTarget_stat lpath hreply
  have hdest : S_ISDIR mode → path.length < (destination lpath path mode).length := by
    intro hdir
    rw [destination, if_pos hdir, length_append, length_append, length_singleton]
    omega
  have hplain : ¬S_ISDIR mode → destination lpath path mode = path := fun hdir => if_neg hdir
  rw [doSyncPush_file _ hstat hreg, if_pos hconnected]
  generalize destination lpath path mode = target at *
  by_cases hlen : target.length ≤ 1024
  · obtain ⟨c₂, hrequest⟩ := sendRequest_stored hlen hwrite
    obtain ⟨more, hmore⟩ := pushEnd_appends mtime showProgress hreg htarget
      hrequest
    rw [(sendRequest_sent hrequest).1, append_assoc] at hmore
    rw [sentBehind_eq hmore.symm]
    constructor
    · intro hprefix
      have hsame : path = target :=
        congrArg Sent.bytes (cons_prefix_cons.mp (cons_prefix_cons.mp hprefix).2).1
      refine ⟨fun hdir => ?_, hsame ▸ hlen⟩
      have hlt := hdest hdir
      rw [hsame] at hlt
      exact lt_irrefl _ hlt
    · rintro ⟨hdir, -⟩
      rw [hplain hdir]
      exact prefix_append _ _
  · have hsend : sendRequest target lmode (c.afterStat path rest) =
        (.error (.ret (-1)), c.afterStat path rest) := by
      rw [sendRequest, if_pos (not_le.mp hlen)]
      rfl
    have hsync : syncSend lpath target mtime lmode showProgress (c.afterStat path rest) =
        (.error (.ret (-1)), c.afterStat path rest) := bind_of_error _ hsend
    rw [pushEnd, bind_of_ok _ htarget, orReturn1,
      bind_of_error _ (exitAs_of_error _ hsync), sentBehind_eq (append_nil _).symm]
    refine iff_of_false (fun h => ?_) (fun h => hlen (by rw [hplain h.1]; exact h.2))
    cases prefix_nil.mp h

end Requests

end PaxAdb.Sync
