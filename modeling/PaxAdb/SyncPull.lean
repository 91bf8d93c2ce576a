import PaxAdb.SyncReplies

/-!
# What a pull returns

`sync_recv` asks for a file, makes the local file when the first reply has data, and runs through
the messages. A transfer that is refused at any point, with a `FAIL` message or an unknown id,
removes the local file and returns 0 all the same.
-/

namespace PaxAdb.Sync

open LittleEndian Proc

section Request

abbrev Fails {α : Type} (x : Call α) : Prop := Proc.Exits (· = .ret (-1)) x

theorem writex_fails (bytes : List Byte) : Fails (writex bytes) :=
  .bind (fun _ _ _ h => nomatch h) (fun _ => .ite (.pure ()) (.exit rfl))

theorem request_fails (id : UInt32) (path : Path) : Fails (request id path) :=
  .bind (writex_fails _) (fun _ => writex_fails path)

theorem readMsg_fails (n : ℕ) (hn : 4 * n < 2 ^ 63) : Fails (readMsg n) := by
  intro c e c' h
  rcases hread : PaxAdb.readx (4 * n) c.arrivals with _ | ⟨bytes, rest⟩
  · rw [readMsg_of_none hn hread] at h
    cases h
    rfl
  · rw [readMsg_of_some hn hread] at h
    cases h

theorem statRequest_fails (path : Path) : Fails (statRequest path) := by
  refine .bind (request_fails _ _) (fun _ => .bind (readMsg_fails 4 (by decide)) (fun msg => ?_))
  split
  · exact .ite (.pure _) (.exit rfl)
  · exact .exit rfl

theorem recvRequest_fails (rpath : Path) (showProgress : Bool) :
    Fails (recvRequest rpath showProgress) :=
  .ite (.exit rfl) (.bind (.ite (statRequest_fails rpath) (.pure _))
    (fun _ => .bind (request_fails _ _) (fun _ => readMsg_fails 2 (by decide))))

theorem readMsg_two {c c' : Client} {msg : List UInt32} (h : readMsg 2 c = (.ok msg, c')) :
    ∃ id size, msg = [id, size] := by
  rcases readx_header c.arrivals with hnone | ⟨header, rest, id, size, hsome, hmsg⟩
  · rw [readMsg_of_none (by decide) hnone] at h
    cases h
  · rw [readMsg_of_some (by decide) hsome] at h
    cases h
    exact ⟨id, size, hmsg⟩

theorem recvRequest_cases (rpath : Path) (showProgress : Bool) (c : Client) :
    (∃ c₁, recvRequest rpath showProgress c = (.error (.ret (-1)), c₁)) ∨
    ∃ id size c₁, recvRequest rpath showProgress c = (.ok [id, size], c₁) := by
  rcases h : recvRequest rpath showProgress c with ⟨e | msg, c₁⟩
  · rw [recvRequest_fails rpath showProgress _ _ _ h]
    exact Or.inl ⟨c₁, rfl⟩
  · have hmsg : ∃ id size, msg = [id, size] := by
      rw [recvRequest] at h
      split at h
      · cases h
      · obtain ⟨_, _, _, h⟩ := (bind_ok_iff _ _ _ _ _).mp h
        obtain ⟨_, _, _, h⟩ := (bind_ok_iff _ _ _ _ _).mp h
        exact readMsg_two h
    obtain ⟨id, size, rfl⟩ := hmsg
    exact Or.inr ⟨id, size, c₁, rfl⟩

end Request

section Truth

variable {rpath lpath : Path} {showProgress copyAttrs : Bool} {c c₁ : Client} {id size : UInt32}

/-- The client gets to the end of the transfer: a new file is made if there are data, and takes
all of them. -/
def Reaches (lpath : Path) (id : UInt32) (payloads : List (List Byte)) (c : Client) : Prop :=
  id = ID_DATA ∨ id = ID_DONE →
    (openTarget lpath c).1 = .ok true ∧ storeAll payloads c.writes = true

/-- The device has ended the transfer with `DONE`, and the file has its payloads in order. -/
def Complete (rpath lpath : Path) (showProgress : Bool) (c c' : Client) : Prop :=
  ∃ id size c₁, recvRequest rpath showProgress c = (.ok [id, size], c₁) ∧
    (replies id size c₁.arrivals).2 = .done ∧
    c'.content lpath = some (replies id size c₁.arrivals).1.flatten

/-- The transfer comes to this ending, with no local failure before. -/
def EndsIn (rpath lpath : Path) (showProgress : Bool) (c : Client) (ending : Ending) : Prop :=
  ∃ id size c₁, recvRequest rpath showProgress c = (.ok [id, size], c₁) ∧
    (replies id size c₁.arrivals).2 = ending ∧
    Reaches lpath id (replies id size c₁.arrivals).1 c₁

def RecvTruth (rpath lpath : Path) (showProgress : Bool) (c : Client) : Prop :=
  ∃ ret, returned (syncRecv rpath lpath showProgress c) = some ret ∧
    (ret = 0 → Complete rpath lpath showProgress c (syncRecv rpath lpath showProgress c).2)

def PullTruth (rpath lpath : Path) (showProgress copyAttrs : Bool) (c : Client) : Prop :=
  ∀ time mode c₁, pullStart rpath c = (.ok (time, mode), c₁) → IsFile mode →
    ∃ ret, returned (doSyncPull rpath lpath showProgress copyAttrs c) = some ret ∧
      (ret = 0 → Complete rpath (pullTarget rpath lpath c₁) showProgress c₁
        (doSyncPull rpath lpath showProgress copyAttrs c).2)

theorem openTarget_created {c' : Client} (h : openTarget lpath c = (.ok true, c')) :
    c'.content lpath = some [] := by
  obtain ⟨_, c₂, _, h⟩ := (bind_ok_iff _ _ _ _ _).mp h
  obtain ⟨_, c₃, _, h⟩ := (bind_ok_iff _ _ _ _ _).mp h
  obtain ⟨r, c₄, _, h⟩ := (bind_ok_iff _ _ _ _ _).mp h
  obtain ⟨_, c₅, hupdate, h⟩ := (bind_ok_iff _ _ _ _ _).mp h
  rw [update_apply] at hupdate
  cases hupdate
  rw [pure_apply, Prod.mk.injEq, Except.ok.injEq, decide_eq_true_eq] at h
  obtain ⟨rfl, rfl⟩ := h
  exact Function.update_self _ _ _

theorem recvReply_reached (h : Reaches lpath id (replies id size c.arrivals).1 c) :
    (recvReply lpath [id, size] c).1 = (replies id size c.arrivals).2.result ∧
    ((replies id size c.arrivals).2 = .done →
      (recvReply lpath [id, size] c).2.content lpath =
        some (replies id size c.arrivals).1.flatten) := by
  rw [recvReply]
  by_cases hid : id = ID_DATA ∨ id = ID_DONE
  · obtain ⟨hcreated, hstored⟩ := h hid
    obtain ⟨created, c', hopen, hpath⟩ :=
      (openTarget_total lpath).within (openTarget_path lpath) c
    rw [hopen] at hcreated
    cases hcreated
    rw [if_pos hid, bind_of_ok _ hopen]
    have hloop := recvLoop_received c'.fuel id size c' (Nat.lt_succ_self _)
      (openTarget_created hopen)
    rw [hpath.arrivals, hpath.writes, hstored] at hloop
    exact ⟨hloop.result, hloop.content rfl⟩
  · rw [not_or] at hid
    rw [if_neg (not_or.mpr hid)]
    obtain ⟨_, hresult⟩ := remoteError_result lpath size c hid.2 hid.1
    exact ⟨hresult, fun hend => absurd hend (replies_error_ne_done hid.2 hid.1)⟩

theorem recvReply_not_reached (h : ¬Reaches lpath id (replies id size c.arrivals).1 c) :
    (recvReply lpath [id, size] c).1 = .error (.ret (-1)) := by
  obtain ⟨hid, hfailed⟩ := Classical.not_imp.mp h
  obtain ⟨created, c', hopen, hpath⟩ := (openTarget_total lpath).within (openTarget_path lpath) c
  rw [recvReply, if_pos hid, bind_of_ok _ hopen]
  cases created with
  | false => rfl
  | true =>
    have hstored : ¬storeAll (replies id size c.arrivals).1 c.writes = true := by
      intro hstored
      rw [hopen] at hfailed
      exact hfailed ⟨rfl, hstored⟩
    have hloop := recvLoop_received c'.fuel id size c' (Nat.lt_succ_self _)
      (openTarget_created hopen)
    rw [hpath.arrivals, hpath.writes, Bool.eq_false_of_not_eq_true hstored] at hloop
    exact hloop.result

inductive RecvOutcome (rpath lpath : Path) (showProgress : Bool) (c : Client) :
    Except Stop Unit × Client → Prop
  | failed (c' : Client) (hrefused : ¬EndsIn rpath lpath showProgress c .refused) :
      RecvOutcome rpath lpath showProgress c (.error (.ret (-1)), c')
  | complete (c' : Client) (hcomplete : Complete rpath lpath showProgress c c')
      (hrefused : ¬EndsIn rpath lpath showProgress c .refused) :
      RecvOutcome rpath lpath showProgress c (.ok (), c')
  | refused (c' : Client) (hrefused : EndsIn rpath lpath showProgress c .refused)
      (hcomplete : ∀ c', ¬Complete rpath lpath showProgress c c') :
      RecvOutcome rpath lpath showProgress c (.ok (), c')

theorem endsIn_iff (lpath : Path) (h : recvRequest rpath showProgress c = (.ok [id, size], c₁))
    (ending : Ending) : EndsIn rpath lpath showProgress c ending ↔
      (replies id size c₁.arrivals).2 = ending ∧
      Reaches lpath id (replies id size c₁.arrivals).1 c₁ := by
  constructor
  · rintro ⟨id', size', c₁', h', hend, hreach⟩
    rw [h] at h'
    cases h'
    exact ⟨hend, hreach⟩
  · rintro ⟨hend, hreach⟩
    exact ⟨id, size, c₁, h, hend, hreach⟩

theorem Complete.ending (h : recvRequest rpath showProgress c = (.ok [id, size], c₁))
    {c' : Client} (hcomplete : Complete rpath lpath showProgress c c') :
    (replies id size c₁.arrivals).2 = .done := by
  obtain ⟨id', size', c₁', h', hend, _⟩ := hcomplete
  rw [h] at h'
  cases h'
  exact hend

theorem syncRecv_outcome (rpath lpath : Path) (showProgress : Bool) (c : Client) :
    RecvOutcome rpath lpath showProgress c (syncRecv rpath lpath showProgress c) := by
  rcases recvRequest_cases rpath showProgress c with ⟨c₁, h⟩ | ⟨id, size, c₁, h⟩
  · rw [syncRecv, bind_of_error _ h]
    refine .failed c₁ ?_
    rintro ⟨id, size, c₁', h', _⟩
    rw [h] at h'
    cases h'
  · have hends := endsIn_iff lpath h
    rw [syncRecv, bind_of_ok _ h]
    by_cases hreach : Reaches lpath id (replies id size c₁.arrivals).1 c₁
    · obtain ⟨hresult, hcontent⟩ := recvReply_reached hreach
      rcases hreply : recvReply lpath [id, size] c₁ with ⟨r, c'⟩
      rw [hreply] at hresult hcontent
      have hother : (replies id size c₁.arrivals).2 ≠ .refused →
          ¬EndsIn rpath lpath showProgress c .refused := fun hne hend => hne ((hends _).mp hend).1
      cases hend : (replies id size c₁.arrivals).2 with
      | done =>
        rw [hend] at hresult hother
        cases hresult
        exact .complete c' ⟨id, size, c₁, h, hend, hcontent hend⟩ (hother nofun)
      | refused =>
        rw [hend] at hresult
        cases hresult
        refine .refused c' ((hends _).mpr ⟨hend, hreach⟩) (fun c' hcomplete => ?_)
        cases hend.symm.trans (hcomplete.ending h)
      | broken | overrun =>
        rw [hend] at hresult hother
        cases hresult
        exact .failed c' (hother nofun)
    · have hresult := recvReply_not_reached hreach
      rcases hreply : recvReply lpath [id, size] c₁ with ⟨r, c'⟩
      rw [hreply] at hresult
      cases hresult
      exact .failed c' (fun hend => hreach ((hends _).mp hend).2)

theorem recvTruth_iff (rpath lpath : Path) (showProgress : Bool) (c : Client) :
    RecvTruth rpath lpath showProgress c ↔ ¬EndsIn rpath lpath showProgress c .refused := by
  have houtcome := syncRecv_outcome rpath lpath showProgress c
  rw [RecvTruth]
  generalize syncRecv rpath lpath showProgress c = r at houtcome ⊢
  cases houtcome with
  | failed c' hrefused => exact iff_of_true ⟨-1, rfl, fun h => nomatch h⟩ hrefused
  | complete c' hcomplete hrefused => exact iff_of_true ⟨0, rfl, fun _ => hcomplete⟩ hrefused
  | refused c' hrefused hcomplete =>
    refine iff_of_false ?_ (not_not.mpr hrefused)
    rintro ⟨ret, hret, htruth⟩
    cases hret
    exact hcomplete c' (htruth rfl)

theorem IsFile.ne_zero {mode : UInt32} (h : IsFile mode) : mode ≠ 0 := by
  rintro rfl
  revert h
  decide

theorem doSyncPull_file {time mode : UInt32} (hstart : pullStart rpath c = (.ok (time, mode), c₁))
    (hfile : IsFile mode) :
    doSyncPull rpath lpath showProgress copyAttrs c =
      pullEnd rpath (pullTarget rpath lpath c₁) showProgress copyAttrs c₁ := by
  rw [doSyncPull, bind_of_ok _ hstart]
  change (if mode = 0 then _ else if IsFile mode then _ else _ : Call Unit) c₁ = _
  rw [if_neg hfile.ne_zero, if_pos hfile]
  rfl

theorem copyAttributes_cases (copyAttrs : Bool) (c : Client) :
    ∃ c', SameFiles c c' ∧ (copyAttributes copyAttrs c = (.ok (), c') ∨
      copyAttributes copyAttrs c = (.error (.ret 1), c')) := by
  refine ⟨(copyAttributes copyAttrs c).2, copyAttributes_files copyAttrs c, ?_⟩
  rw [copyAttributes]
  split
  · rcases h : setTimeAndMode c with ⟨e | _, c'⟩
    · have he : e = .ret (-1) := by
        have hexits : Fails setTimeAndMode :=
          .bind (nextCall_total.exits _) (fun _ => .bind (nextCall_total.exits _)
            (fun _ => .ite (.pure ()) (.exit rfl)))
        exact hexits _ _ _ h
      rw [orReturn1, exitAs_of_error _ h, he]
      exact Or.inr rfl
    · rw [orReturn1, exitAs_of_ok _ h]
      exact Or.inl rfl
  · exact Or.inl rfl

theorem pullEnd_truth_iff (rpath target : Path) (showProgress copyAttrs : Bool) (c : Client) :
    (∃ ret, returned (pullEnd rpath target showProgress copyAttrs c) = some ret ∧
      (ret = 0 → Complete rpath target showProgress c
        (pullEnd rpath target showProgress copyAttrs c).2)) ↔
    (EndsIn rpath target showProgress c .refused →
      (copyAttributes copyAttrs (syncRecv rpath target showProgress c).2).1 ≠ .ok ()) := by
  have houtcome := syncRecv_outcome rpath target showProgress c
  rw [pullEnd]
  generalize hrecv : syncRecv rpath target showProgress c = r at houtcome ⊢
  cases houtcome with
  | failed c' hrefused =>
    rw [orReturn1, bind_of_error _ (exitAs_of_error _ hrecv)]
    exact iff_of_true ⟨1, rfl, fun h => nomatch h⟩ (fun h => absurd h hrefused)
  | complete c' hcomplete hrefused =>
    rw [orReturn1, bind_of_ok _ (exitAs_of_ok _ hrecv)]
    obtain ⟨c₂, hfiles, hok | herror⟩ := copyAttributes_cases copyAttrs c'
    · obtain ⟨_, c₃, hquit, hwire⟩ := syncQuit_total.within syncQuit_wire c₂
      rw [bind_of_ok _ hok, hquit]
      refine iff_of_true ⟨0, rfl, fun _ => ?_⟩ (fun h => absurd h hrefused)
      obtain ⟨id, size, c₁, hrequest, hend, hcontent⟩ := hcomplete
      refine ⟨id, size, c₁, hrequest, hend, ?_⟩
      rw [← hcontent, hwire.content, hfiles.content]
    · rw [bind_of_error _ herror]
      exact iff_of_true ⟨1, rfl, fun h => nomatch h⟩ (fun h => absurd h hrefused)
  | refused c' hrefused hcomplete =>
    rw [orReturn1, bind_of_ok _ (exitAs_of_ok _ hrecv)]
    obtain ⟨c₂, hfiles, hok | herror⟩ := copyAttributes_cases copyAttrs c'
    · obtain ⟨_, c₃, hquit, hwire⟩ := syncQuit_total.within syncQuit_wire c₂
      rw [bind_of_ok _ hok, hquit, hok]
      refine iff_of_false ?_ (fun h => h hrefused rfl)
      rintro ⟨ret, hret, htruth⟩
      cases hret
      exact hcomplete c₃ (htruth rfl)
    · rw [bind_of_error _ herror, herror]
      exact iff_of_true ⟨1, rfl, fun h => nomatch h⟩ (fun _ h => nomatch h)

/-- `sync_recv` tells the truth unless the device refuses the transfer, and `do_sync_pull` on a
file does unless the attributes are then set as well. -/
theorem pull_truthful_iff (rpath lpath : Path) (showProgress copyAttrs : Bool) (c : Client) :
    (RecvTruth rpath lpath showProgress c ↔ ¬EndsIn rpath lpath showProgress c .refused) ∧
    (PullTruth rpath lpath showProgress copyAttrs c ↔
      ∀ time mode c₁, pullStart rpath c = (.ok (time, mode), c₁) → IsFile mode →
        EndsIn rpath (pullTarget rpath lpath c₁) showProgress c₁ .refused →
          (copyAttributes copyAttrs
            (syncRecv rpath (pullTarget rpath lpath c₁) showProgress c₁).2).1 ≠ .ok ()) := by
  refine ⟨recvTruth_iff rpath lpath showProgress c, ?_⟩
  rw [PullTruth]
  refine forall_congr' (fun time => forall_congr' (fun mode => forall_congr' (fun c₁ => ?_)))
  refine forall_congr' (fun hstart => forall_congr' (fun hfile => ?_))
  rw [doSyncPull_file hstart hfile]
  exact pullEnd_truth_iff rpath (pullTarget rpath lpath c₁) showProgress copyAttrs c₁

/-- A refusal as the first reply: both functions return 0. -/
theorem pull_refused_returns_zero :
    returned (syncRecv (text "/f") (text "f") false (.hearing [ID_FAIL, 0])) = some 0 ∧
    ¬RecvTruth (text "/f") (text "f") false (.hearing [ID_FAIL, 0]) ∧
    returned (doSyncPull (text "/f") (text "f") false false
      (.hearing [ID_STAT, 0x81a4, 1, 0, ID_FAIL, 0])) = some 0 := by
  have hzero :
      returned (syncRecv (text "/f") (text "f") false (.hearing [ID_FAIL, 0])) = some 0 := by
    decide +kernel
  refine ⟨hzero, ?_, by decide +kernel⟩
  rintro ⟨ret, hret, htruth⟩
  obtain ⟨id, size, c₁, hrequest, hend, _⟩ := htruth (Option.some.inj (hret.symm.trans hzero))
  have hreply : (recvRequest (text "/f") false (.hearing [ID_FAIL, 0])).1 = .ok [ID_FAIL, 0] := by
    decide +kernel
  rw [hrequest] at hreply
  cases hreply
  exact replies_error_ne_done (by decide) (by decide) hend

end Truth

section Refused

variable {rpath lpath : Path} {showProgress : Bool} {c c₁ : Client} {id size : UInt32}

theorem syncRecv_refused (hreply : recvRequest rpath showProgress c = (.ok [id, size], c₁))
    (hdata : id ≠ ID_DATA) (hdone : id ≠ ID_DONE) :
    syncRecv rpath lpath showProgress c = remoteError lpath id size c₁ := by
  rw [syncRecv, bind_of_ok _ hreply, recvReply, if_neg (not_or.mpr ⟨hdata, hdone⟩)]

theorem adbUnlink_content (path : Path) (c : Client) :
    (adbUnlink path c).2.content path =
      if c.calls.headD .ok = .ok then none else c.content path := by
  rw [adbUnlink, bind_of_ok _ (nextCall_apply c), update_apply]
  split
  · simp only [Client.setContent, Function.update_self]
  · rfl

theorem remoteError_content (lpath : Path) (id size : UInt32) (c : Client) :
    (remoteError lpath id size c).2.content = (adbUnlink lpath c).2.content := by
  obtain ⟨u, c', hunlink⟩ := adbUnlink_total lpath c
  have hrest : Proc.Within WireOnly (if id = ID_FAIL then readFailMessage size else pure ()) :=
    .ite (fun _ => readFailMessage_wire size) (fun _ => .pure ())
  rw [remoteError, bind_of_ok _ hunlink, hunlink]
  exact (hrest c').content

/-- A refused pull leaves the local file alone exactly when the file cannot be removed. -/
theorem refused_pull_keeps_file_iff {data : List Byte} (hfile : c.content lpath = some data)
    (hreply : recvRequest rpath showProgress c = (.ok [id, size], c₁))
    (hdata : id ≠ ID_DATA) (hdone : id ≠ ID_DONE) :
    (syncRecv rpath lpath showProgress c).2.content lpath = some data ↔
      c.calls.headD .ok ≠ .ok := by
  have hwire : WireOnly c c₁ := by
    have hc := recvRequest_wire rpath showProgress c
    rwa [hreply] at hc
  rw [syncRecv_refused hreply hdata hdone, remoteError_content, adbUnlink_content, hwire.calls,
    hwire.content, hfile]
  split
  next hok => exact iff_of_false (fun h => nomatch h) (not_not.mpr hok)
  next hfailed => exact iff_of_true rfl hfailed

def Client.refused (calls : List CallResult) : Client :=
  { Client.hearing [ID_FAIL, 0] with
    calls := calls
    content := Function.update (fun _ => none) (text "f") (some (text "old")) }

theorem refused_pull_keeps_locked_file :
    (syncRecv (text "/f") (text "f") false (.refused [.failed])).2.content (text "f") =
      some (text "old") := by
  have hreply : recvRequest (text "/f") false (.refused [.failed]) =
      (.ok [ID_FAIL, 0], (recvRequest (text "/f") false (.refused [.failed])).2) :=
    Prod.ext (by decide +kernel) rfl
  have hfile : (Client.refused [.failed]).content (text "f") = some (text "old") := by
    decide +kernel
  exact (refused_pull_keeps_file_iff hfile hreply (by decide) (by decide)).mpr (by decide)

/-- The file is gone, although nothing was transferred. -/
theorem refused_pull_removes_file :
    (Client.refused []).content (text "f") = some (text "old") ∧
    (recvRequest (text "/f") false (.refused [])).1 = .ok [ID_FAIL, 0] ∧
    (syncRecv (text "/f") (text "f") false (.refused [])).2.content (text "f") = none := by
  decide +kernel

end Refused

end PaxAdb.Sync
