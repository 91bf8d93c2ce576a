import PaxAdb.SyncPull

/-!
# The local paths of a directory pull

`copy_remote_dir_local` puts the names it gets from the device behind the local directory without
looking at them; only directories called `.` or `..` are left out. The list of files it builds is
that of the regular files and links the device lists, each with the directories on the way to it,
and the paths it creates, truncates or removes lie below the directory exactly when the names do.
-/

namespace PaxAdb.Sync

open List Proc

section Paths

def components (rel : Path) : List Path := rel.splitOnP (· = 0x2f)

def Tame (rel : Path) : Prop := rel.head? ≠ some 0x2f ∧ text ".." ∉ components rel

def Inside (dir path : Path) : Prop := ∃ rel, path = withSlash dir ++ rel ∧ Tame rel

/-- What a pull into `dir` may do. `mkdirs` starts at the top, so that it also makes sure of `dir`
itself and of the directories above it. -/
def Allowed (dir : Path) : Touch → Prop
  | .unlink path => Inside dir path
  | .creat path => Inside dir path
  | .mkdir path => Inside dir path ∨ path ++ [0x2f] <+: withSlash dir

def OfFile (lpath : Path) (t : Touch) : Prop :=
  t = .unlink lpath ∨ t = .creat lpath ∨ ∃ path ∈ dirPrefixes lpath, t = .mkdir path

theorem mem_dirPrefixes {name path : Path} (h : path ∈ dirPrefixes name) :
    path ++ [0x2f] <+: name := by
  rw [dirPrefixes, mem_map] at h
  obtain ⟨i, hi, rfl⟩ := h
  simp only [mem_filter, mem_range, decide_eq_true_eq] at hi
  obtain ⟨hlt, _, hslash⟩ := hi
  rw [getElem?_eq_getElem hlt, Option.some.injEq] at hslash
  rw [← hslash, take_append_getElem]
  exact take_prefix _ _

theorem components_append (path rest : Path) :
    components (path ++ [0x2f] ++ rest) = components path ++ components rest := by
  rw [components, append_assoc, singleton_append, splitOnP_append_cons path rest (by decide)]
  rfl

theorem Tame.of_slash_prefix {rel path : Path} (h : Tame rel) (hp : path ++ [0x2f] <+: rel) :
    Tame path := by
  obtain ⟨rest, rfl⟩ := hp
  refine ⟨fun hhead => h.1 ?_, fun hup => h.2 ?_⟩
  · rw [append_assoc, head?_append, hhead]
    rfl
  · rw [components_append]
    exact mem_append_left _ hup

theorem inside_append_iff (dir rel : Path) : Inside dir (withSlash dir ++ rel) ↔ Tame rel := by
  constructor
  · rintro ⟨rel', heq, htame⟩
    rw [append_cancel_left_eq] at heq
    rw [heq]
    exact htame
  · exact fun htame => ⟨rel, rfl, htame⟩

theorem allowed_of_inside {dir lpath : Path} {t : Touch} (h : Inside dir lpath)
    (ht : OfFile lpath t) : Allowed dir t := by
  rcases ht with rfl | rfl | ⟨path, hpath, rfl⟩
  · exact h
  · exact h
  · obtain ⟨rel, rfl, htame⟩ := h
    have hprefix := mem_dirPrefixes hpath
    by_cases hlen : (path ++ [0x2f]).length ≤ (withSlash dir).length
    · exact Or.inr (prefix_of_prefix_length_le hprefix (prefix_append _ _) hlen)
    · -- the slash is behind the directory, and so is the path in front of it
      rw [length_append, length_singleton] at hlen
      obtain ⟨rest, rfl⟩ : withSlash dir <+: path :=
        prefix_of_prefix_length_le (prefix_append _ _)
          ((prefix_append _ _).trans hprefix) (by omega)
      rw [append_assoc, prefix_append_right_inj] at hprefix
      exact Or.inl ⟨rest, rfl, htame.of_slash_prefix hprefix⟩

end Paths

section Touches

def Touches (P : Touch → Prop) (c c' : Client) : Prop :=
  ∃ ts, c'.touched = c.touched ++ ts ∧ ∀ t ∈ ts, P t

theorem touches_of_eq {P : Touch → Prop} {c c' : Client} (h : c'.touched = c.touched) :
    Touches P c c' :=
  ⟨[], by rw [h, append_nil], fun _ ht => absurd ht not_mem_nil⟩

instance (P : Touch → Prop) : IsPreorder Client (Touches P) where
  refl _ := touches_of_eq rfl
  trans _ _ _ h h' := by
    obtain ⟨ts, htouched, hts⟩ := h
    obtain ⟨ts', htouched', hts'⟩ := h'
    refine ⟨ts ++ ts', ?_, forall_mem_append.mpr ⟨hts, hts'⟩⟩
    rw [htouched', htouched, append_assoc]

variable {P : Touch → Prop} {lpath : Path}

theorem wire_touches {α : Type} {x : Call α} (h : Proc.Within WireOnly x) :
    Proc.Within (Touches P) x := h.mono (fun _ _ hw => touches_of_eq hw.touched)

theorem files_touches {α : Type} {x : Call α} (h : Proc.Within SameFiles x) :
    Proc.Within (Touches P) x := h.mono (fun _ _ hs => touches_of_eq hs.touched)

theorem adbUnlink_touched (path : Path) (c : Client) :
    (adbUnlink path c).2.touched = c.touched ++ [.unlink path] := by
  rw [adbUnlink, bind_of_ok _ (nextCall_apply c), update_apply]
  split <;> rfl

theorem adbUnlink_touches (h : P (.unlink lpath)) : Proc.Within (Touches P) (adbUnlink lpath) :=
  fun c => ⟨_, adbUnlink_touched lpath c, forall_mem_singleton.mpr h⟩

theorem adbMkdir_touches (h : P (.mkdir lpath)) : Proc.Within (Touches P) (adbMkdir lpath) :=
  .bind (files_touches nextCall_files) (fun r =>
    .bind (fun _ => ⟨_, rfl, forall_mem_singleton.mpr h⟩) (fun _ => .pure r))

theorem adbCreat_touches (h : P (.creat lpath)) : Proc.Within (Touches P) (adbCreat lpath) := by
  refine .bind (files_touches nextCall_files) (fun r => .bind (fun c => ?_) (fun _ => .pure _))
  refine ⟨[.creat lpath], ?_, forall_mem_singleton.mpr h⟩
  rw [update_apply]
  split <;> rfl

theorem mkdirsLoop_touches {paths : List Path} (h : ∀ path ∈ paths, P (.mkdir path)) :
    Proc.Within (Touches P) (mkdirsLoop paths) := by
  induction paths with
  | nil => exact .pure ()
  | cons path paths ih =>
    have hrest := ih (fun q hq => h q (mem_cons_of_mem _ hq))
    exact .bind (adbMkdir_touches (h path mem_cons_self))
      (fun _ => .ite (fun _ => .pure ()) (fun _ => hrest))

theorem writeLocal_touches (lpath : Path) (bytes : List Byte) :
    Proc.Within (Touches P) (writeLocal lpath bytes) := by
  intro c
  refine touches_of_eq ?_
  simp only [writeLocal]
  split <;> rfl

theorem remoteError_touches (id size : UInt32) (h : P (.unlink lpath)) :
    Proc.Within (Touches P) (remoteError lpath id size) :=
  .bind (adbUnlink_touches h)
    (fun _ => .ite (fun _ => wire_touches (readFailMessage_wire size)) (fun _ => .pure ()))

theorem recvLoop_touches (fuel : ℕ) (id size : UInt32) (h : P (.unlink lpath)) :
    Proc.Within (Touches P) (recvLoop lpath fuel id size) := by
  induction fuel generalizing id size with
  | zero => exact .exit _
  | succ fuel ih =>
    refine .ite (fun _ => .pure ()) (fun _ => .ite (fun _ => remoteError_touches id size h)
      (fun _ => ?_))
    refine .bind (wire_touches (lengthField_wire size)) (fun len => .ite (fun _ => .exit _)
      (fun _ => .bind (wire_touches (readx_wire _ _)) (fun bytes => ?_)))
    refine .bind (writeLocal_touches lpath bytes)
      (fun _ => .bind (wire_touches (readMsg_wire 2)) (fun msg => ?_))
    split
    · exact ih _ _
    · exact .exit _

theorem recvReply_touched (lpath : Path) (id size : UInt32) (c : Client) :
    ∃ ts, (recvReply lpath [id, size] c).2.touched = c.touched ++ (.unlink lpath :: ts) ∧
      ∀ t ∈ ts, OfFile lpath t := by
  obtain ⟨_, c', hunlink⟩ := adbUnlink_total lpath c
  have htouched := adbUnlink_touched lpath c
  rw [hunlink] at htouched
  -- it is enough that everything after the first call is for the path
  suffices hrest : ∃ x : Call Unit, Proc.Within (Touches (OfFile lpath)) x ∧
      recvReply lpath [id, size] c = x c' by
    obtain ⟨x, hx, heq⟩ := hrest
    obtain ⟨ts, hts, hall⟩ := hx c'
    refine ⟨ts, ?_, hall⟩
    rw [heq, hts, htouched, append_assoc]
    rfl
  have hunlinkable : OfFile lpath (.unlink lpath) := Or.inl rfl
  rw [recvReply]
  by_cases hid : id = ID_DATA ∨ id = ID_DONE
  · rw [if_pos hid, bind_apply, openTarget, bind_of_ok _ hunlink, ← bind_apply]
    refine ⟨_, ?_, rfl⟩
    refine .bind (.bind (mkdirsLoop_touches (fun path hpath => ?_)) (fun _ => ?_)) (fun _ => ?_)
    · exact Or.inr (Or.inr ⟨path, hpath, rfl⟩)
    · exact adbCreat_touches (Or.inr (Or.inl rfl))
    · exact .ite (fun _ => .bind .state (fun _ => recvLoop_touches _ _ _ hunlinkable))
        (fun _ => .exit _)
  · rw [if_neg hid, remoteError, bind_of_ok _ hunlink]
    refine ⟨_, ?_, rfl⟩
    exact .ite (fun _ => wire_touches (readFailMessage_wire size)) (fun _ => .pure ())

theorem syncRecv_touched (rpath lpath : Path) (c : Client) :
    (∃ msg c₁, recvRequest rpath false c = (.ok msg, c₁) ∧
      ∃ ts, (syncRecv rpath lpath false c).2.touched = c.touched ++ (.unlink lpath :: ts) ∧
        ∀ t ∈ ts, OfFile lpath t) ∨
    (∃ e c₁, recvRequest rpath false c = (.error e, c₁) ∧
      syncRecv rpath lpath false c = (.error e, c₁) ∧ c₁.touched = c.touched) := by
  have hwire := recvRequest_wire rpath false c
  rcases recvRequest_cases rpath false c with ⟨c₁, h⟩ | ⟨id, size, c₁, h⟩
  · rw [h] at hwire
    exact Or.inr ⟨_, c₁, h, bind_of_error _ h, hwire.touched⟩
  · rw [h] at hwire
    obtain ⟨ts, htouched, hts⟩ := recvReply_touched lpath id size c₁
    refine Or.inl ⟨_, c₁, h, ts, ?_, hts⟩
    rw [syncRecv, bind_of_ok _ h, htouched, hwire.touched]

end Touches

section Listing

/-- A file the device lists, with the directories on the way to it. -/
structure Listed where
  dirs : List Path
  entry : Entry
  deriving DecidableEq, Repr

namespace Listed

def rel (f : Listed) : Path := (f.dirs.map (· ++ [0x2f])).flatten ++ f.entry.name

def within (dir : Path) (f : Listed) : Listed := { f with dirs := dir :: f.dirs }

def info (rpath lpath : Path) (f : Listed) : CopyInfo :=
  ⟨rpath ++ f.rel, lpath ++ f.rel, f.entry.time, f.entry.mode, f.entry.size, false⟩

/-- No name on the way goes up, and the first one does not start at the root. -/
def Harmless (f : Listed) : Prop :=
  (∀ name ∈ f.dirs ++ [f.entry.name], text ".." ∉ components name) ∧
    match f.dirs with
    | [] => f.entry.name.head? ≠ some 0x2f
    | dir :: _ => dir ≠ [] ∧ dir.head? ≠ some 0x2f

theorem components_rel (f : Listed) :
    components f.rel = (f.dirs ++ [f.entry.name]).flatMap components := by
  obtain ⟨dirs, entry⟩ := f
  induction dirs with
  | nil => simp [rel]
  | cons dir dirs ih =>
    have hrel : rel ⟨dir :: dirs, entry⟩ = dir ++ [0x2f] ++ rel ⟨dirs, entry⟩ := by simp [rel]
    rw [hrel, components_append, ih]
    rfl

theorem tame_rel_iff (f : Listed) : Tame f.rel ↔ f.Harmless := by
  rw [Tame, Harmless, components_rel, and_comm]
  refine and_congr (by simp only [mem_flatMap, not_exists, not_and]) ?_
  cases hdirs : f.dirs with
  | nil => simp [rel, hdirs]
  | cons dir dirs =>
    cases dir with
    | nil | cons => simp [rel, hdirs]

theorem info_within (rpath lpath dir : Path) (f : Listed) :
    (f.within dir).info rpath lpath =
      f.info (rpath ++ dir ++ [0x2f]) (lpath ++ dir ++ [0x2f]) := by
  simp [info, rel, within]

end Listed

/-- The records the device sends for a directory, the last one first. -/
def listing (rpath : Path) : Call (List Entry) :=
  orReturn1 (syncLs rpath (fun entries e => e :: entries) [])

def Entry.IsEntered (e : Entry) : Prop :=
  S_ISDIR e.mode ∧ e.name ≠ text "." ∧ e.name ≠ text ".."

def Entry.IsPulled (e : Entry) : Prop := ¬S_ISDIR e.mode ∧ (S_ISREG e.mode ∨ S_ISLNK e.mode)

instance : DecidablePred Entry.IsEntered := fun _ => inferInstanceAs (Decidable (_ ∧ _))

instance : DecidablePred Entry.IsPulled := fun _ => inferInstanceAs (Decidable (_ ∧ _))

def listedIn (list : Path → Call (List Listed)) : List Path → Call (List Listed)
  | [] => pure []
  | dir :: dirs => do
      let files ← list dir
      let rest ← listedIn list dirs
      pure (rest ++ files.map (Listed.within dir))

/-- The regular files and links of a directory and of all directories below it. -/
def listed : ℕ → Path → Call (List Listed)
  | 0, _ => exit .exhausted
  | fuel + 1, rpath => do
      let entries ← listing rpath
      let below ← listedIn (fun dir => listed fuel (rpath ++ dir ++ [0x2f]))
        ((entries.filter (·.IsEntered)).map (·.name))
      pure (below ++ (entries.filter (·.IsPulled)).map (⟨[], ·⟩))

theorem syncLsLoop_foldr {β : Type} (func : β → Entry → β) (cookie : β) (fuel : ℕ)
    (entries : List Entry) :
    syncLsLoop func fuel (entries.foldr (fun e x => func x e) cookie) =
      (syncLsLoop (fun entries e => e :: entries) fuel entries >>= fun entries =>
        pure (entries.foldr (fun e x => func x e) cookie)) := by
  induction fuel generalizing entries with
  | zero => rfl
  | succ fuel ih =>
    simp only [syncLsLoop, bind_assoc]
    refine congrArg _ (funext fun msg => ?_)
    split
    · split_ifs
      · rfl
      · rfl
      · simp only [bind_assoc]
        refine congrArg _ (funext fun len => ?_)
        split_ifs
        · rfl
        · simp only [bind_assoc]
          exact congrArg _ (funext fun buf => ih (_ :: entries))
    · rfl

theorem orReturn1_bind_pure {α β : Type} (x : Call α) (g : α → β) :
    orReturn1 (x >>= fun a => pure (g a)) = (orReturn1 x >>= fun a => pure (g a)) := by
  simp only [orReturn1]
  funext c
  rcases hx : x c with ⟨e | a, c'⟩
  · rw [exitAs_of_error _ (bind_of_error _ hx), bind_of_error _ (exitAs_of_error _ hx)]
  · have hbind : (x >>= fun a => pure (g a)) c = (.ok (g a), c') := bind_of_ok _ hx
    rw [exitAs_of_ok _ hbind, bind_of_ok _ (exitAs_of_ok _ hx)]
    rfl

theorem syncLs_eq {β : Type} (rpath : Path) (func : β → Entry → β) (cookie : β) :
    orReturn1 (syncLs rpath func cookie) = (listing rpath >>= fun entries =>
      pure (entries.foldr (fun e x => func x e) cookie)) := by
  rw [listing, ← orReturn1_bind_pure]
  refine congrArg orReturn1 ?_
  rw [syncLs, syncLs]
  split_ifs
  · rfl
  · simp only [bind_assoc]
    exact congrArg _ (funext fun _ => congrArg _ (funext fun c =>
      syncLsLoop_foldr func cookie c.fuel []))

theorem foldr_syncLsBuildListCb (rpath lpath : Path) (filelist : List CopyInfo)
    (entries : List Entry) :
    entries.foldr (fun e args => syncLsBuildListCb rpath lpath args e) ⟨filelist, []⟩ =
      ⟨(entries.filter (·.IsPulled)).map (fun e => Listed.info rpath lpath ⟨[], e⟩) ++ filelist,
        ((entries.filter (·.IsEntered)).map (·.name)).map (mkcopyinfo rpath lpath · true)⟩ := by
  induction entries with
  | nil => rfl
  | cons e entries ih =>
    rw [foldr_cons, ih, syncLsBuildListCb]
    split_ifs with hdir hdot hreg
    · rcases hdot with hdot | hdot <;>
        simp [Entry.IsEntered, Entry.IsPulled, hdir, hdot]
    · obtain ⟨hdot, hup⟩ := not_or.mp hdot
      simp [Entry.IsEntered, Entry.IsPulled, hdir, hdot, hup]
    · simp [Entry.IsEntered, Entry.IsPulled, hdir, hreg, Listed.info, Listed.rel, mkcopyinfo]
    · simp [Entry.IsEntered, Entry.IsPulled, hdir, hreg]

/-- The list `remote_build_list` puts before the files it has is that of the files listed. -/
theorem remoteBuildList_eq (fuel : ℕ) (rpath lpath : Path) (filelist : List CopyInfo) :
    remoteBuildList fuel rpath lpath filelist = (listed fuel rpath >>= fun files =>
      pure (files.map (Listed.info rpath lpath) ++ filelist)) := by
  induction fuel generalizing rpath lpath filelist with
  | zero => rfl
  | succ fuel ih =>
    have hdirs : ∀ (dirs : List Path) (filelist : List CopyInfo),
        buildDirs (fun dir filelist => remoteBuildList fuel dir.src dir.dst filelist)
          (dirs.map (mkcopyinfo rpath lpath · true)) filelist =
        (listedIn (fun dir => listed fuel (rpath ++ dir ++ [0x2f])) dirs >>= fun files =>
          pure (files.map (Listed.info rpath lpath) ++ filelist)) := by
      intro dirs
      induction dirs with
      | nil => exact fun _ => rfl
      | cons dir dirs ihd =>
        intro filelist
        rw [map_cons, buildDirs, ih, listedIn]
        simp only [bind_assoc, pure_bind, ihd]
        refine congrArg _ (funext fun files => congrArg _ (funext fun rest => ?_))
        simp [mkcopyinfo, Function.comp_def, Listed.info_within]
    simp only [remoteBuildList, listed, syncLs_eq, bind_assoc, pure_bind, foldr_syncLsBuildListCb]
    refine congrArg _ (funext fun entries => ?_)
    rw [hdirs]
    refine congrArg _ (funext fun files => ?_)
    simp [Function.comp_def]

theorem syncLsLoop_wire {β : Type} (func : β → Entry → β) (fuel : ℕ) (cookie : β) :
    Proc.Within WireOnly (syncLsLoop func fuel cookie) := by
  induction fuel generalizing cookie with
  | zero => exact .exit _
  | succ fuel ih =>
    refine .bind (readMsg_wire 5) (fun msg => ?_)
    split
    · refine .ite (fun _ => .pure _) (fun _ => .ite (fun _ => .exit _) (fun _ => ?_))
      refine .bind (lengthField_wire _) (fun _ => .ite (fun _ => .exit _) (fun _ => ?_))
      exact .bind (readx_wire _ _) (fun _ => ih _)
    · exact .exit _

theorem syncLs_wire {β : Type} (path : Path) (func : β → Entry → β) (cookie : β) :
    Proc.Within WireOnly (syncLs path func cookie) :=
  .ite (fun _ => .exit _) (fun _ => .bind (request_wire _ _)
    (fun _ => .bind .state (fun _ => syncLsLoop_wire func _ cookie)))

theorem buildDirs_wire {build : CopyInfo → List CopyInfo → Call (List CopyInfo)}
    (h : ∀ dir filelist, Proc.Within WireOnly (build dir filelist))
    (dirlist filelist : List CopyInfo) :
    Proc.Within WireOnly (buildDirs build dirlist filelist) := by
  induction dirlist generalizing filelist with
  | nil => exact .pure _
  | cons dir dirlist ih => exact .bind (h dir filelist) (fun filelist => ih filelist)

theorem remoteBuildList_wire (fuel : ℕ) (rpath lpath : Path) (filelist : List CopyInfo) :
    Proc.Within WireOnly (remoteBuildList fuel rpath lpath filelist) := by
  induction fuel generalizing rpath lpath filelist with
  | zero => exact .exit _
  | succ fuel ih =>
    exact .bind (.exitAs _ (syncLs_wire _ _ _))
      (fun args => buildDirs_wire (fun dir filelist => ih _ _ _) args.dirlist args.filelist)

end Listing

section Files

variable {rpath lpath : Path} {copyAttrs : Bool}

def Answered (ci : CopyInfo) (c : Client) : Prop :=
  ci.flag = false ∧ (recvRequest ci.src false c).1.isOk = true

instance (ci : CopyInfo) (c : Client) : Decidable (Answered ci c) :=
  inferInstanceAs (Decidable (_ ∧ _))

/-- The files the device answers for before the pull ends. -/
def answered (rpath lpath : Path) (copyAttrs : Bool) : List Listed → Client → List Listed
  | [], _ => []
  | f :: files, c =>
      (if Answered (f.info rpath lpath) c then [f] else []) ++
        match pullFile copyAttrs (f.info rpath lpath) c with
        | (.ok _, c') => answered rpath lpath copyAttrs files c'
        | (.error _, _) => []

theorem bind_touched {α β : Type} {x : Call α} {f : α → Call β}
    (hf : ∀ a, Proc.Within SameFiles (f a)) (c : Client) :
    ((x >>= f) c).2.touched = (x c).2.touched := by
  rcases hx : x c with ⟨e | a, c'⟩
  · rw [bind_of_error _ hx]
  · rw [bind_of_ok _ hx]
    exact (hf a c').touched

theorem orReturn1_state {α : Type} (x : Call α) (c : Client) : (orReturn1 x c).2 = (x c).2 := by
  rcases hx : x c with ⟨e | a, c'⟩
  · rw [orReturn1, exitAs_of_error _ hx]
  · rw [orReturn1, exitAs_of_ok _ hx]

/-- The calls a list of files leads to: all of them are for an answered file, and each answered
file is removed. -/
def PullTouches (lpath : Path) (files : List Listed) (c c' : Client) : Prop :=
  ∃ ts, c'.touched = c.touched ++ ts ∧ (∀ t ∈ ts, ∃ f ∈ files, OfFile (lpath ++ f.rel) t) ∧
    ∀ f ∈ files, Touch.unlink (lpath ++ f.rel) ∈ ts

theorem PullTouches.nil {c c' : Client} (h : c'.touched = c.touched) : PullTouches lpath [] c c' :=
  ⟨[], by rw [h, append_nil], fun _ ht => absurd ht not_mem_nil, fun _ hf => absurd hf not_mem_nil⟩

theorem PullTouches.append {files files' : List Listed} {c₁ c₂ c₃ : Client}
    (h : PullTouches lpath files c₁ c₂) (h' : PullTouches lpath files' c₂ c₃) :
    PullTouches lpath (files ++ files') c₁ c₃ := by
  obtain ⟨ts, htouched, hof, hunlink⟩ := h
  obtain ⟨ts', htouched', hof', hunlink'⟩ := h'
  refine ⟨ts ++ ts', by rw [htouched', htouched, append_assoc], ?_, ?_⟩
  · refine forall_mem_append.mpr ⟨fun t ht => ?_, fun t ht => ?_⟩
    · obtain ⟨f, hf, hfile⟩ := hof t ht
      exact ⟨f, mem_append_left _ hf, hfile⟩
    · obtain ⟨f, hf, hfile⟩ := hof' t ht
      exact ⟨f, mem_append_right _ hf, hfile⟩
  · exact forall_mem_append.mpr ⟨fun f hf => mem_append_left _ (hunlink f hf),
      fun f hf => mem_append_right _ (hunlink' f hf)⟩

theorem pullFile_touches (rpath : Path) (copyAttrs : Bool) (f : Listed) (c : Client) :
    PullTouches lpath (if Answered (f.info rpath lpath) c then [f] else []) c
      (pullFile copyAttrs (f.info rpath lpath) c).2 := by
  set ci := f.info rpath lpath
  rw [pullFile, if_pos (show ci.flag = false from rfl)]
  have htouched := bind_touched (x := orReturn1 (syncRecv ci.src ci.dst false))
    (fun _ => copyAttributes_files copyAttrs) c
  rw [orReturn1_state] at htouched
  rcases syncRecv_touched ci.src ci.dst c with
    ⟨msg, c₁, hrequest, ts, hts, hof⟩ | ⟨e, c₁, hrequest, hrecv, hsame⟩
  · have hanswered : Answered ci c := ⟨rfl, by rw [hrequest]; rfl⟩
    rw [if_pos hanswered]
    refine ⟨.unlink ci.dst :: ts, htouched.trans hts, ?_, ?_⟩
    · refine forall_mem_cons.mpr ⟨⟨f, mem_singleton_self _, Or.inl rfl⟩, ?_⟩
      exact fun t ht => ⟨f, mem_singleton_self _, hof t ht⟩
    · exact forall_mem_singleton.mpr mem_cons_self
  · have hanswered : ¬Answered ci c := by
      rintro ⟨_, hok⟩
      rw [hrequest] at hok
      cases hok
    rw [if_neg hanswered]
    refine .nil (htouched.trans ?_)
    rw [hrecv]
    exact hsame

theorem pullFiles_touches (files : List Listed) (c : Client) :
    PullTouches lpath (answered rpath lpath copyAttrs files c) c
      (pullFiles copyAttrs (files.map (Listed.info rpath lpath)) c).2 := by
  induction files generalizing c with
  | nil => exact .nil rfl
  | cons f files ih =>
    have hfile : PullTouches lpath _ c _ := pullFile_touches rpath copyAttrs f c
    rw [map_cons, pullFiles, answered]
    rcases hpull : pullFile copyAttrs (f.info rpath lpath) c with ⟨e | _, c'⟩ <;>
      rw [hpull] at hfile
    · rw [bind_of_error _ hpull, append_nil]
      exact hfile
    · rw [bind_of_ok _ hpull]
      exact hfile.append (ih c')

end Files

section Result

def touches {α : Type} (x : Call α) (c : Client) : List Touch :=
  (x c).2.touched.drop c.touched.length

/-- The files that the device lists and goes on to answer for. -/
def pulled (rpath lpath : Path) (copyAttrs : Bool) (c : Client) : List Listed :=
  if rpath = [] ∨ lpath = [] then []
  else
    match listed c.fuel (withSlash rpath) c with
    | (.ok files, c₁) => answered (withSlash rpath) (withSlash lpath) copyAttrs files c₁
    | (.error _, _) => []

/-- Building the list makes no call on a local path, and pulling its files makes those of the
files that are answered. -/
theorem copyRemoteDirLocal_touches (rpath lpath : Path) (copyAttrs : Bool) (c : Client) :
    PullTouches (withSlash lpath) (pulled rpath lpath copyAttrs c) c
      (copyRemoteDirLocal rpath lpath copyAttrs c).2 := by
  rw [copyRemoteDirLocal, pulled]
  by_cases hempty : rpath = [] ∨ lpath = []
  · rw [if_pos hempty, if_pos hempty]
    exact .nil rfl
  rw [if_neg hempty, if_neg hempty, bind_of_ok _ (state_apply c)]
  have hwire := remoteBuildList_wire c.fuel (withSlash rpath) (withSlash lpath) [] c
  rw [remoteBuildList_eq] at hwire ⊢
  rcases hlisted : listed c.fuel (withSlash rpath) c with ⟨e | files, c₁⟩
  · have hbuild := bind_of_error (fun files => pure (files.map
      (Listed.info (withSlash rpath) (withSlash lpath)) ++ [])) hlisted
    rw [hbuild] at hwire
    rw [bind_of_error _ (exitAs_of_error _ hbuild)]
    exact .nil hwire.touched
  · have hbuild := bind_of_ok (fun files => pure (files.map
      (Listed.info (withSlash rpath) (withSlash lpath)) ++ [])) hlisted
    rw [hbuild] at hwire
    rw [bind_of_ok _ (exitAs_of_ok _ hbuild), append_nil]
    exact (PullTouches.nil hwire.touched).append (pullFiles_touches files c₁)

/-- A directory pull stays inside its target exactly when the names on the way to every file it
pulls are harmless. -/
theorem directory_pull_inside_iff (rpath lpath : Path) (copyAttrs : Bool) (c : Client) :
    (∀ t ∈ touches (copyRemoteDirLocal rpath lpath copyAttrs) c, Allowed lpath t) ↔
      ∀ f ∈ pulled rpath lpath copyAttrs c, f.Harmless := by
  obtain ⟨ts, htouched, hof, hunlink⟩ := copyRemoteDirLocal_touches rpath lpath copyAttrs c
  have hinside : ∀ f : Listed, Inside lpath (withSlash lpath ++ f.rel) ↔ f.Harmless := fun f =>
    (inside_append_iff lpath f.rel).trans f.tame_rel_iff
  rw [touches, htouched, drop_left]
  constructor
  · intro hallowed f hf
    exact (hinside f).mp (hallowed _ (hunlink f hf))
  · intro hharmless t ht
    obtain ⟨f, hf, hfile⟩ := hof t ht
    exact allowed_of_inside ((hinside f).mpr (hharmless f hf)) hfile

/-- The device lists one regular file with the name `../x`: it is created next to the directory. -/
theorem directory_pull_escapes :
    touches (copyRemoteDirLocal (text "/r") (text "d") false)
        (.hearing [ID_DENT, 0x81a4, 0, 0, 4, 0x782f2e2e, ID_DONE, 0, 0, 0, 0, ID_DONE, 0]) =
      [.unlink (text "d/../x"), .mkdir (text "d"), .mkdir (text "d/.."), .creat (text "d/../x")] ∧
    ¬Allowed (text "d") (.creat (text "d/../x")) := by
  refine ⟨by decide +kernel, ?_⟩
  rintro ⟨rel, heq, _, hnot⟩
  have hrel : rel = text "../x" := (congrArg (drop 2) heq).symm
  rw [hrel] at hnot
  exact hnot (by decide)

end Result

end PaxAdb.Sync
