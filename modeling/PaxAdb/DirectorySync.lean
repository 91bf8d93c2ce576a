import PaxAdb.DirectoryPush
import PaxAdb.SyncUnlink

/-!
# Sending only what is new

`do_sync_sync` asks the device for the mode, size and time of every file of the list before it sends
any of them, and leaves out those it recognises. All requests are written before the first reply is
read, so a reply belongs to the file at its place in the list. The types are compared by the bits
that both modes have.
-/

namespace PaxAdb.Sync

open LittleEndian List Proc StatMsg UInt32

section Model

def doSyncSync (d : LocalDir) (lpath rpath : Path) (listonly : Bool) : Call Unit := do
  adbConnect
  orReturn1 (copyLocalDirRemote d lpath rpath true listonly)
  syncQuit

def LocalDir.syncSends (d : LocalDir) (lpath rpath : Path) (c : Client) : List CopyInfo :=
  if c.connected = false ∨ lpath = [] ∨ rpath = [] ∨ (d.build lpath rpath).1 ≠ 0 then []
  else
    match checkTimestamps (d.build lpath rpath).2 c with
    | (.ok filelist, c') => sentFiles false filelist c'
    | (.error _, _) => []

def Known (ci : CopyInfo) (msg : StatMsg) : Prop :=
  msg.size = ci.size ∧
    (S_ISREG (ci.mode &&& msg.mode) ∧ msg.time = ci.time ∨
      S_ISLNK (ci.mode &&& msg.mode) ∧ ci.time ≤ msg.time)

instance (ci : CopyInfo) (msg : StatMsg) : Decidable (Known ci msg) :=
  inferInstanceAs (Decidable (_ ∧ _))

/-- The device has the same file: both are regular files or both are links, of one size, and the
time fits. -/
def Identical (ci : CopyInfo) (msg : StatMsg) : Prop :=
  msg.size = ci.size ∧
    (S_ISREG ci.mode ∧ S_ISREG msg.mode ∧ msg.time = ci.time ∨
      S_ISLNK ci.mode ∧ S_ISLNK msg.mode ∧ ci.time ≤ msg.time)

instance (ci : CopyInfo) (msg : StatMsg) : Decidable (Identical ci msg) :=
  inferInstanceAs (Decidable (_ ∧ _))

/-- The files of the list that have not been sent are ones that the device has. -/
inductive SkipsIdentical : List (CopyInfo × StatMsg) → List CopyInfo → Prop where
  | nil : SkipsIdentical [] []
  | sent {ci msg pairs sends} : SkipsIdentical pairs sends →
      SkipsIdentical ((ci, msg) :: pairs) (ci :: sends)
  | skipped {ci msg pairs sends} : Identical ci msg → SkipsIdentical pairs sends →
      SkipsIdentical ((ci, msg) :: pairs) sends

def StatMsg.encode (msg : StatMsg) : List Byte :=
  encodeWords [ID_STAT, msg.mode, msg.size, msg.time]

end Model

section Types

variable {ci : CopyInfo} {msg : StatMsg}

theorem and_type (a b : UInt32) : (a &&& b) &&& 0xf000 = (a &&& 0xf000) &&& (b &&& 0xf000) := by
  rw [UInt32.and_assoc, UInt32.and_assoc, ← UInt32.and_assoc 0xf000 b, UInt32.and_comm 0xf000 b,
    UInt32.and_assoc, UInt32.and_self]

theorem and_type_of_eq {a b : UInt32} (h : b &&& 0xf000 = a &&& 0xf000) :
    (a &&& b) &&& 0xf000 = a &&& 0xf000 := by
  rw [and_type, h, UInt32.and_self]

theorem identical_iff :
    Identical ci msg ↔ Known ci msg ∧ msg.mode &&& 0xf000 = ci.mode &&& 0xf000 := by
  constructor
  · rintro ⟨hsize, ⟨hreg, hreg', htime⟩ | ⟨hlnk, hlnk', htime⟩⟩
    · have htype : msg.mode &&& 0xf000 = ci.mode &&& 0xf000 := hreg'.trans hreg.symm
      exact ⟨⟨hsize, .inl ⟨(and_type_of_eq htype).trans hreg, htime⟩⟩, htype⟩
    · have htype : msg.mode &&& 0xf000 = ci.mode &&& 0xf000 := hlnk'.trans hlnk.symm
      exact ⟨⟨hsize, .inr ⟨(and_type_of_eq htype).trans hlnk, htime⟩⟩, htype⟩
  · rintro ⟨⟨hsize, ⟨hreg, htime⟩ | ⟨hlnk, htime⟩⟩, htype⟩
    · have hci : S_ISREG ci.mode := (and_type_of_eq htype).symm.trans hreg
      exact ⟨hsize, .inl ⟨hci, htype.trans hci, htime⟩⟩
    · have hci : S_ISLNK ci.mode := (and_type_of_eq htype).symm.trans hlnk
      exact ⟨hsize, .inr ⟨hci, htype.trans hci, htime⟩⟩

end Types

section Listed

variable {filelist : List CopyInfo}

def entriesList : Except (List CopyInfo) (List CopyInfo × List SubDir) → List CopyInfo
  | .error filelist => filelist
  | .ok x => x.1

theorem readEntries_unmarked (lpath rpath : Path) (l : Listing) (dirlist : List SubDir)
    (h : ∀ ci ∈ filelist, ci.flag = false) :
    ∀ ci ∈ entriesList (readEntries lpath rpath l filelist dirlist), ci.flag = false := by
  fun_induction readEntries lpath rpath l filelist dirlist with
  | case1 | case2 | case6 => exact h
  | case3 filelist dirlist o below rest _ ih => exact ih h
  | case4 filelist dirlist o below rest _ _ ih => exact ih h
  | case5 filelist dirlist o below rest _ _ _ _ ci ih => exact ih h
  | case7 filelist dirlist o below rest _ _ _ _ _ _ ih => exact ih h
  | case8 filelist dirlist o below rest _ _ _ _ ci₀ _ _ ci ih =>
    refine ih fun x hx => ?_
    rcases mem_cons.mp hx with rfl | hx
    · rfl
    · exact h x hx
  | case9 filelist dirlist o below rest _ _ _ ih => exact ih h

theorem localBuildList_unmarked (fuel : ℕ) (lpath rpath : Path) (opens : Bool) (l : Listing)
    (h : ∀ ci ∈ filelist, ci.flag = false) :
    ∀ ci ∈ (localBuildList fuel lpath rpath opens l filelist).2, ci.flag = false := by
  induction fuel generalizing lpath rpath opens l filelist with
  | zero => exact h
  | succ fuel ih =>
    rw [localBuildList]
    split
    · exact h
    · have hread := readEntries_unmarked lpath rpath l [] h
      split
      next hentries =>
        rw [hentries] at hread
        exact hread
      next filelist' dirlist hentries =>
        rw [hentries] at hread
        change ∀ ci ∈ filelist', ci.flag = false at hread
        clear hentries
        dsimp only
        induction dirlist generalizing filelist' with
        | nil => exact hread
        | cons dir dirlist hdirs => exact hdirs _ (ih _ _ _ _ hread)

theorem build_unmarked (d : LocalDir) (lpath rpath : Path) :
    ∀ ci ∈ (d.build lpath rpath).2, ci.flag = false :=
  localBuildList_unmarked _ _ _ _ _ nofun

end Listed

section Replies

variable {filelist marked : List CopyInfo} {replies : List StatMsg} {rest : List Byte}
  {c c' : Client}

def mark (ci : CopyInfo) (msg : StatMsg) : CopyInfo :=
  { ci with flag := ci.flag || decide (Known ci msg) }

theorem startReadtimes_arrivals (h : startReadtimes filelist c = (.ok (), c')) :
    c'.arrivals = c.arrivals := by
  induction filelist generalizing c with
  | nil =>
    cases h
    rfl
  | cons ci filelist ih =>
    obtain ⟨_, c₁, hstart, hrest⟩ := (bind_ok_iff _ _ _ _ _).mp h
    obtain ⟨-, rfl⟩ := request_stored_iff.mp (orReturn1_ok hstart)
    exact (ih hrest).trans rfl

theorem syncFinishReadtime_ok {msg msg' : StatMsg} (h : syncFinishReadtime c = (.ok msg', c'))
    (harr : arrived c.arrivals = msg.encode ++ rest) : msg' = msg ∧ arrived c'.arrivals = rest := by
  obtain ⟨ws, c₁, hread, h⟩ := (bind_ok_iff _ _ _ _ _).mp h
  obtain ⟨hlen, harr', -⟩ := readMsg_ok (by decide) hread
  rw [harr] at harr'
  have hlens : msg.encode.length = (encodeWords ws).length := by
    rw [encode, length_encodeWords, length_encodeWords, hlen]
    rfl
  obtain ⟨hws, hrest⟩ := append_inj harr' hlens
  have hws := congrArg decodeWords hws
  rw [encode, decodeWords_encodeWords, decodeWords_encodeWords] at hws
  rw [← hws] at h
  cases h
  exact ⟨rfl, hrest.symm⟩

theorem finishReadtimes_ok (h : finishReadtimes filelist c = (.ok marked, c'))
    (hlen : replies.length = filelist.length)
    (harr : arrived c.arrivals = replies.flatMap encode ++ rest) :
    marked = zipWith mark filelist replies := by
  induction filelist generalizing c c' marked replies with
  | nil =>
    cases h
    rfl
  | cons ci filelist ih =>
    obtain _ | ⟨msg, replies⟩ := replies
    · cases hlen
    obtain ⟨msg', c₁, hmsg, h⟩ := (bind_ok_iff _ _ _ _ _).mp h
    obtain ⟨marked', c₂, hmarked, h⟩ := (bind_ok_iff _ _ _ _ _).mp h
    rw [flatMap_cons, append_assoc] at harr
    obtain ⟨rfl, hrest⟩ := syncFinishReadtime_ok (orReturn1_ok hmsg) harr
    rw [zipWith_cons_cons, ← ih hmarked (Nat.succ.inj hlen) hrest]
    cases h
    rfl

theorem checkTimestamps_ok (h : checkTimestamps filelist c = (.ok marked, c'))
    (hlen : replies.length = filelist.length)
    (harr : arrived c.arrivals = replies.flatMap encode ++ rest) :
    marked = zipWith mark filelist replies := by
  obtain ⟨_, c₁, hstart, hfinish⟩ := (bind_ok_iff _ _ _ _ _).mp h
  rw [← startReadtimes_arrivals hstart] at harr
  exact finishReadtimes_ok hfinish hlen harr

def unknown (pairs : List (CopyInfo × StatMsg)) : List CopyInfo :=
  (pairs.filter fun x => ¬Known x.1 x.2).map (·.1)

theorem filter_mark (h : ∀ ci ∈ filelist, ci.flag = false) :
    (zipWith mark filelist replies).filter (·.flag = false) =
      unknown (filelist.zip replies) := by
  induction filelist generalizing replies with
  | nil => rfl
  | cons ci filelist ih =>
    obtain _ | ⟨msg, replies⟩ := replies
    · rfl
    have hrest := @ih replies fun x hx => h x (mem_cons_of_mem _ hx)
    have hflag : ci.flag = false := h ci mem_cons_self
    rw [zipWith_cons_cons, zip_cons_cons, unknown]
    by_cases hknown : Known ci msg
    · have hmark : (mark ci msg).flag = true := by
        rw [mark, hflag, decide_eq_true hknown]
        rfl
      rw [filter_cons_of_neg (by simp [hmark]), filter_cons_of_neg (by simpa using hknown)]
      exact hrest
    · have hmark : mark ci msg = ci := by
        rw [mark, hflag, decide_eq_false hknown, Bool.or_false, ← hflag]
      rw [hmark, filter_cons_of_pos (by simpa using hflag),
        filter_cons_of_pos (by simpa using hknown)]
      exact congrArg (ci :: ·) hrest

end Replies

section Skipping

variable {d : LocalDir} {lpath rpath : Path} {pairs : List (CopyInfo × StatMsg)}
  {sends : List CopyInfo} {replies : List StatMsg} {rest : List Byte} {c : Client}

theorem SkipsIdentical.length_le (h : SkipsIdentical pairs sends) :
    pairs.length ≤ sends.length + (pairs.filter fun x => Identical x.1 x.2).length := by
  induction h with
  | nil => exact le_rfl
  | @sent ci msg pairs sends _ ih =>
    have hmore := ((sublist_cons_self (ci, msg) pairs).filter
      fun x => Identical x.1 x.2).length_le
    rw [length_cons, length_cons]
    omega
  | skipped hidentical _ ih =>
    rw [filter_cons_of_pos (by simpa using hidentical), length_cons, length_cons]
    omega

/-- Leaving out what is recognised is right when only what the device has is recognised. -/
theorem skipsIdentical_unknown_iff :
    SkipsIdentical pairs (unknown pairs) ↔ ∀ x ∈ pairs, Known x.1 x.2 → Identical x.1 x.2 := by
  constructor
  · intro h x hx hknown
    -- as many are left out as are recognised, and not more than the device has
    have hsub : List.Sublist (pairs.filter fun x => Identical x.1 x.2)
        (pairs.filter fun x => Known x.1 x.2) := by
      refine monotone_filter_right _ fun y hy => ?_
      rw [decide_eq_true_eq] at hy ⊢
      exact (identical_iff.mp hy).1
    have hle := h.length_le
    have hcount : pairs.length = (pairs.filter fun x => Known x.1 x.2).length +
        (unknown pairs).length := by
      simp only [unknown, length_map, decide_not]
      exact length_eq_length_filter_add _
    have hall := hsub.eq_of_length_le (by omega)
    have hmem : x ∈ pairs.filter fun x => Known x.1 x.2 :=
      mem_filter.mpr ⟨hx, decide_eq_true hknown⟩
    rw [← hall] at hmem
    exact of_decide_eq_true (mem_filter.mp hmem).2
  · intro h
    induction pairs with
    | nil => exact .nil
    | cons x pairs ih =>
      have hrest := ih fun y hy => h y (mem_cons_of_mem _ hy)
      rw [unknown]
      by_cases hknown : Known x.1 x.2
      · rw [filter_cons_of_neg (by simpa using hknown)]
        exact .skipped (h x mem_cons_self hknown) hrest
      · rw [filter_cons_of_pos (by simpa using hknown)]
        exact .sent hrest

theorem syncSends_initial (hlen : replies.length = (d.build lpath rpath).2.length)
    (harr : arrived c.arrivals = replies.flatMap encode ++ rest) :
    d.syncSends lpath rpath c <+: unknown ((d.build lpath rpath).2.zip replies) := by
  rw [LocalDir.syncSends]
  split
  · exact nil_prefix
  · split
    next marked c' hcheck =>
      rw [← filter_mark (build_unmarked d lpath rpath), ← checkTimestamps_ok hcheck hlen harr]
      exact sentFiles_initial _ _
    · exact nil_prefix

theorem adbConnect_exits : Proc.Exits (· ≠ .ret 0) adbConnect := by
  intro s e s' h
  rw [adbConnect] at h
  split at h
  · cases h
  · cases h
    decide

theorem adbConnect_ok {c' : Client} (h : adbConnect c = (.ok (), c')) :
    c.connected = true ∧ c' = c := by
  rw [adbConnect] at h
  split at h <;> cases h
  next hconnected =>
    exact ⟨hconnected, rfl⟩

theorem syncSends_eq (hret : returned (doSyncSync d lpath rpath false c) = some 0)
    (hlen : replies.length = (d.build lpath rpath).2.length)
    (harr : arrived c.arrivals = replies.flatMap encode ++ rest) :
    d.syncSends lpath rpath c = unknown ((d.build lpath rpath).2.zip replies) := by
  have hexits : Proc.Exits (· ≠ .ret 0) (doSyncSync d lpath rpath false) :=
    .bind adbConnect_exits fun _ => .bind (orReturn1_exits _) fun _ => syncQuit_total.exits _
  obtain ⟨c', hsync⟩ := ok_of_returned hexits hret
  obtain ⟨_, c₁, hconnect, hsync⟩ := (bind_ok_iff _ _ _ _ _).mp hsync
  obtain ⟨_, c₂, hcopy, -⟩ := (bind_ok_iff _ _ _ _ _).mp hsync
  obtain ⟨hconnected, rfl⟩ := adbConnect_ok hconnect
  have hcopy := orReturn1_ok hcopy
  rw [copyLocalDirRemote] at hcopy
  split at hcopy
  · cases hcopy
  next hempty =>
    split at hcopy
    · cases hcopy
    next hcode =>
      obtain ⟨marked, c₃, hcheck, hpush⟩ := (bind_ok_iff _ _ _ _ _).mp hcopy
      have hcheck : checkTimestamps (d.build lpath rpath).2 c₁ = (.ok marked, c₃) := hcheck
      rw [LocalDir.syncSends, if_neg (by rw [hconnected]; tauto), hcheck]
      dsimp only
      rw [sentFiles_eq_filter hpush, checkTimestamps_ok hcheck hlen harr,
        filter_mark (build_unmarked d lpath rpath)]

def oneFile : LocalDir where
  opens := true
  entries := .entry ⟨text "f", 0x81a4, 7, 1, true, true, false⟩ .nil .nil
  wellFormed := by decide

end Skipping

end PaxAdb.Sync
