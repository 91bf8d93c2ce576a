import PaxAdb.SyncClient

/-!
# What the calls of the sync client leave alone

A call of the client works either on the connection or on the local files, and leaves the other
side as it was.
-/

namespace PaxAdb.Sync

structure LocalOnly (c c' : Client) : Prop where
  arrivals : c'.arrivals = c.arrivals
  results : c'.results = c.results
  sent : c'.sent = c.sent
  lengths : c'.lengths = c.lengths
  requests : c'.requests = c.requests
  stat : c'.stat = c.stat

structure PathOnly (c c' : Client) : Prop extends LocalOnly c c' where
  reads : c'.reads = c.reads
  writes : c'.writes = c.writes

structure WireOnly (c c' : Client) : Prop where
  calls : c'.calls = c.calls
  reads : c'.reads = c.reads
  writes : c'.writes = c.writes
  content : c'.content = c.content
  stat : c'.stat = c.stat
  touched : c'.touched = c.touched

structure SameFiles (c c' : Client) : Prop where
  content : c'.content = c.content
  touched : c'.touched = c.touched

instance : IsPreorder Client SameFiles where
  refl _ := ⟨rfl, rfl⟩
  trans _ _ _ h h' := ⟨h'.content.trans h.content, h'.touched.trans h.touched⟩

instance : IsPreorder Client LocalOnly where
  refl _ := ⟨rfl, rfl, rfl, rfl, rfl, rfl⟩
  trans _ _ _ h h' :=
    ⟨h'.arrivals.trans h.arrivals, h'.results.trans h.results, h'.sent.trans h.sent,
      h'.lengths.trans h.lengths, h'.requests.trans h.requests, h'.stat.trans h.stat⟩

instance : IsPreorder Client PathOnly where
  refl c := ⟨IsPreorder.toRefl.refl c, rfl, rfl⟩
  trans _ _ _ h h' :=
    ⟨IsPreorder.toIsTrans.trans _ _ _ h.toLocalOnly h'.toLocalOnly, h'.reads.trans h.reads,
      h'.writes.trans h.writes⟩

instance : IsPreorder Client WireOnly where
  refl _ := ⟨rfl, rfl, rfl, rfl, rfl, rfl⟩
  trans _ _ _ h h' :=
    ⟨h'.calls.trans h.calls, h'.reads.trans h.reads, h'.writes.trans h.writes,
      h'.content.trans h.content, h'.stat.trans h.stat, h'.touched.trans h.touched⟩

section Local

theorem nextCall_apply (c : Client) :
    nextCall c = (.ok (c.calls.headD .ok), { c with calls := c.calls.tail }) := by
  rw [nextCall]
  cases hcalls : c.calls with
  | nil =>
    refine Prod.ext rfl ?_
    change c = { c with calls := [] }
    rw [← hcalls]
  | cons r calls => rfl

theorem nextCall_path : Proc.Within PathOnly nextCall := by
  intro c
  rw [nextCall]
  split <;> exact ⟨⟨rfl, rfl, rfl, rfl, rfl, rfl⟩, rfl, rfl⟩

theorem touch_path (c : Client) (t : Touch) : PathOnly c (c.touch t) :=
  ⟨⟨rfl, rfl, rfl, rfl, rfl, rfl⟩, rfl, rfl⟩

theorem setContent_path (c : Client) (t : Touch) (path : Path) (data : Option (List Byte)) :
    PathOnly c ((c.touch t).setContent path data) :=
  ⟨⟨rfl, rfl, rfl, rfl, rfl, rfl⟩, rfl, rfl⟩

theorem adbUnlink_path (path : Path) : Proc.Within PathOnly (adbUnlink path) := by
  refine .bind nextCall_path (fun r c => ?_)
  rw [Proc.update_apply]
  split
  · exact setContent_path c _ _ _
  · exact touch_path c _

theorem adbMkdir_path (path : Path) : Proc.Within PathOnly (adbMkdir path) :=
  .bind nextCall_path (fun r => .bind (fun c => touch_path c _) (fun _ => .pure r))

theorem adbCreat_path (path : Path) : Proc.Within PathOnly (adbCreat path) := by
  refine .bind nextCall_path (fun r => .bind (fun c => ?_) (fun _ => .pure _))
  rw [Proc.update_apply]
  split
  · exact setContent_path c _ _ _
  · exact touch_path c _

theorem mkdirsLoop_path (paths : List Path) : Proc.Within PathOnly (mkdirsLoop paths) := by
  induction paths with
  | nil => exact .pure ()
  | cons path paths ih =>
    exact .bind (adbMkdir_path path) (fun r => .ite (fun _ => .pure ()) (fun _ => ih))

theorem openTarget_path (lpath : Path) : Proc.Within PathOnly (openTarget lpath) :=
  .bind (adbUnlink_path lpath) (fun _ =>
    .bind (mkdirsLoop_path _) (fun _ => adbCreat_path lpath))

theorem nextRead_local : Proc.Within LocalOnly nextRead := by
  intro c
  rw [nextRead]
  split <;> exact ⟨rfl, rfl, rfl, rfl, rfl, rfl⟩

theorem writeLocal_local (path : Path) (bytes : List Byte) :
    Proc.Within LocalOnly (writeLocal path bytes) := by
  intro c
  simp only [writeLocal]
  split <;> exact ⟨rfl, rfl, rfl, rfl, rfl, rfl⟩

end Local

section Attributes

theorem nextCall_files : Proc.Within SameFiles nextCall := by
  intro c
  rw [nextCall]
  split <;> exact ⟨rfl, rfl⟩

theorem copyAttributes_files (copyAttrs : Bool) :
    Proc.Within SameFiles (copyAttributes copyAttrs) :=
  .ite (fun _ => .exitAs _ (.bind nextCall_files (fun _ => .bind nextCall_files
    (fun _ => .ite (fun _ => .pure ()) (fun _ => .exit _))))) (fun _ => .pure ())

end Attributes

section Total

theorem nextCall_total : Proc.Total nextCall := by
  intro c
  rw [nextCall]
  split
  · exact ⟨_, _, rfl⟩
  · exact ⟨_, _, rfl⟩

theorem adbUnlink_total (path : Path) : Proc.Total (adbUnlink path) :=
  .bind nextCall_total (fun _ => .update _)

theorem adbMkdir_total (path : Path) : Proc.Total (adbMkdir path) :=
  .bind nextCall_total (fun r => .bind (.update _) (fun _ => .pure r))

theorem adbCreat_total (path : Path) : Proc.Total (adbCreat path) :=
  .bind nextCall_total (fun _ => .bind (.update _) (fun _ => .pure _))

theorem mkdirsLoop_total (paths : List Path) : Proc.Total (mkdirsLoop paths) := by
  induction paths with
  | nil => exact .pure ()
  | cons path paths ih => exact .bind (adbMkdir_total path) (fun _ => .ite (.pure ()) ih)

theorem openTarget_total (lpath : Path) : Proc.Total (openTarget lpath) :=
  .bind (adbUnlink_total lpath) (fun _ =>
    .bind (mkdirsLoop_total _) (fun _ => adbCreat_total lpath))

theorem syncQuit_total : Proc.Total syncQuit := .bind (fun _ => ⟨_, _, rfl⟩) (fun _ => .pure ())

end Total

section Wire

theorem tryWritex_wire (bytes : List Byte) : Proc.Within WireOnly (tryWritex bytes) :=
  fun _ => ⟨rfl, rfl, rfl, rfl, rfl, rfl⟩

theorem writex_wire (bytes : List Byte) : Proc.Within WireOnly (writex bytes) :=
  .bind (tryWritex_wire bytes) (fun _ => .ite (fun _ => .pure ()) (fun _ => .exit _))

theorem readx_wire (room : ℕ) (len : ℤ) : Proc.Within WireOnly (readx room len) := by
  intro c
  simp only [readx]
  split
  · split <;> exact ⟨rfl, rfl, rfl, rfl, rfl, rfl⟩
  · exact ⟨rfl, rfl, rfl, rfl, rfl, rfl⟩

theorem readMsg_wire (n : ℕ) : Proc.Within WireOnly (readMsg n) :=
  .bind (readx_wire _ _) (fun _ => .pure _)

theorem lengthField_wire (field : UInt32) : Proc.Within WireOnly (lengthField field) :=
  fun _ => ⟨rfl, rfl, rfl, rfl, rfl, rfl⟩

theorem request_wire (id : UInt32) (path : Path) : Proc.Within WireOnly (request id path) :=
  .bind (writex_wire _) (fun _ => writex_wire path)

theorem statRequest_wire (path : Path) : Proc.Within WireOnly (statRequest path) := by
  refine .bind (request_wire _ _) (fun _ => .bind (readMsg_wire 4) (fun msg => ?_))
  split
  · exact .ite (fun _ => .pure _) (fun _ => .exit _)
  · exact .exit _

theorem recvRequest_wire (rpath : Path) (showProgress : Bool) :
    Proc.Within WireOnly (recvRequest rpath showProgress) :=
  .ite (fun _ => .exit _) (fun _ =>
    .bind (.ite (fun _ => statRequest_wire rpath) (fun _ => .pure _))
      (fun _ => .bind (request_wire _ _) (fun _ => readMsg_wire 2)))

theorem readFailMessage_wire (size : UInt32) : Proc.Within WireOnly (readFailMessage size) :=
  .bind (lengthField_wire size) (fun _ => .bind (readx_wire _ _) (fun _ => .pure ()))

theorem syncQuit_wire : Proc.Within WireOnly syncQuit :=
  .bind (tryWritex_wire _) (fun _ => .pure ())

end Wire

end PaxAdb.Sync
