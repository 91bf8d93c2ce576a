import PaxAdb.ClientStatus
import PaxAdb.DirectoryPush
import PaxAdb.Systool
import PaxAdb.ToolCommand

/-!
# Running a tool on the device

`pax_tool_command` calls `adb_connect` until it succeeds. For a command with a file
`pax_tool_manage` pushes the file to `/data/local/tmp` first and asks for its removal when the tool
has ended; a push that fails ends the command at once.
-/

namespace PaxAdb.Tool

open Sockets (text)
open Sync (Path)
open List Client Proc

section Model

/-- What the command meets: the connection of the push, the local directories, and the server at
each call of `adb_connect`. -/
structure World where
  sync : Sync.Client
  dirs : Path → Sync.LocalDir
  envs : ℕ → Client.Env
  /-- the services that `adb_connect` was called for -/
  requests : List (List Byte)

/-- A write or read beyond the end of a buffer, or a wait that goes on after the attempts. -/
inductive Stop where
  | overflow
  | waiting
  deriving DecidableEq, Repr

abbrev Call := Proc World Stop

def adbConnect (service : List Byte) : Call (Option (List ReadResult)) := fun w =>
  (.ok (Client.adbConnect (w.envs w.requests.length) service).toOption,
    { w with requests := w.requests ++ [service] })

def connectLoop (service : List Byte) : ℕ → Call (List ReadResult)
  | 0 => exit .waiting
  | attempts + 1 => do
      let fd ← adbConnect service
      match fd with
      | some reads => pure reads
      | none => connectLoop service attempts

def paxToolCommand (more : ℕ) (tool : DeviceTool) (args : List (List Byte)) : Call ℤ :=
  if (svc tool args).InBounds 4096 then do
    let reads ← connectLoop (svc tool args).string (more + 1)
    pure (paxStreamAndParseRet reads (tool = .systool))
  else exit .overflow

def pushed (w : World) (localFile path : Path) : Except Sync.Stop Unit × Sync.Client :=
  Sync.doSyncPush
    (fun lpath rpath => Sync.copyLocalDirRemote (w.dirs lpath) lpath rpath false false)
    localFile path false w.sync

def doSyncPush (localFile path : Path) : Call ℤ := fun w =>
  let w' := { w with sync := (pushed w localFile path).2 }
  match Sync.returned (pushed w localFile path) with
  | some code => (.ok code, w')
  | none => (.error .overflow, w')

def runAndRemove (more : ℕ) (tool : DeviceTool) (args : List (List Byte)) (path : Path) :
    Call ℤ := do
  let ret ← paxToolCommand more tool (args ++ [path])
  let _ ← adbConnect (rmbuf path).string
  pure ret

def paxToolManage (more : ℕ) (tool : DeviceTool) (argv : List (List Byte)) : Call ℤ :=
  match job tool argv with
  | .usage => pure 1
  | .run args => paxToolCommand more tool args
  | .withFile args localFile => do
      let w ← state
      match w.sync.stat localFile with
      | none => pure 1
      | some _ => do
          let ret ← doSyncPush localFile (dest localFile).string
          if ret ≠ 0 then pure ret
          else runAndRemove more tool args (dest localFile).string

end Model

section Waiting

variable {service : List Byte} {w w' : World} {tool : DeviceTool} {args : List (List Byte)}

/-- The server is running, the device is online, and a name that the server accepts is connected. -/
structure Ready (env : Client.Env) : Prop where
  server : checkServer env = .ok ()
  device : ∀ service : List Byte, 1 ≤ service.length → service.length ≤ 1024 →
    ∃ c, connectTo env service env.service = .ok c

theorem adbConnect_ready {env : Client.Env} (h : Ready env)
    (hservice : service ≠ text "host:start-server") :
    (Client.adbConnect env service).toOption.isSome ↔
      1 ≤ service.length ∧ service.length ≤ 1024 := by
  rw [Client.adbConnect, h.server]
  dsimp only
  rw [if_neg hservice]
  by_cases hlen : 1 ≤ service.length ∧ service.length ≤ 1024
  · obtain ⟨c, hc⟩ := h.device service hlen.1 hlen.2
    rw [hc]
    exact iff_of_true rfl hlen
  · have hbytes : Forward.connectBytes service = none := if_pos (by omega)
    rw [connectTo, hbytes]
    exact iff_of_false (by simp [Except.toOption]) hlen

theorem adbConnect_apply (service : List Byte) (w : World) :
    adbConnect service w =
      (.ok (Client.adbConnect (w.envs w.requests.length) service).toOption,
        { w with requests := w.requests ++ [service] }) := rfl

/-- The loop asks for one service all the time, until it gets a connection. -/
theorem connectLoop_spec (service : List Byte) (attempts : ℕ) (w : World) :
    ∃ k, (connectLoop service attempts w).2 =
        { w with requests := w.requests ++ replicate k service } ∧
      (0 < attempts → 0 < k) ∧
      ((connectLoop service attempts w).1 = .error .waiting ∨
        ∃ reads i, (connectLoop service attempts w).1 = .ok reads ∧
          (Client.adbConnect (w.envs i) service).toOption = some reads) := by
  induction attempts generalizing w with
  | zero => exact ⟨0, by simp [connectLoop], nofun, .inl rfl⟩
  | succ attempts ih =>
    rw [connectLoop, Proc.bind_of_ok _ (adbConnect_apply service w)]
    cases hfd : (Client.adbConnect (w.envs w.requests.length) service).toOption with
    | some reads => exact ⟨1, rfl, fun _ => Nat.one_pos, .inr ⟨reads, _, rfl, hfd⟩⟩
    | none =>
      obtain ⟨k, hw, -, hresult⟩ := ih { w with requests := w.requests ++ [service] }
      refine ⟨k + 1, ?_, fun _ => Nat.succ_pos k, hresult⟩
      have hrequests : w.requests ++ replicate (k + 1) service =
          w.requests ++ [service] ++ replicate k service := by
        rw [replicate_succ, append_assoc, singleton_append]
      rw [hrequests]
      exact hw

theorem shell_ne_start (s : List Byte) : text "shell:" ++ s ≠ text "host:start-server" := by
  intro heq
  exact absurd (cons.inj heq).1 (by decide)

/-- The command returns after a number of attempts exactly when the name of the service is not too
long. -/
theorem tool_command_returns_iff (tool : DeviceTool) (args : List (List Byte)) (w : World)
    (hnul : ∀ arg ∈ args, 0 ∉ arg) (hready : ∀ i, Ready (w.envs i)) :
    (∃ more ret w', paxToolCommand more tool args w = (.ok ret, w')) ↔
      (text "shell:" ++ commandLine tool args).length ≤ 1024 := by
  have hservice := shell_ne_start (commandLine tool args)
  constructor
  · rintro ⟨more, ret, w', h⟩
    rw [paxToolCommand] at h
    split at h
    next hfits =>
      rw [svc_string tool hnul hfits] at h
      obtain ⟨reads, w₁, hloop, -⟩ := (Proc.bind_ok_iff _ _ _ _ _).mp h
      obtain ⟨k, -, -, hwaiting | ⟨reads', i, -, hfd⟩⟩ :=
        connectLoop_spec (text "shell:" ++ commandLine tool args) (more + 1) w
      · rw [hloop] at hwaiting
        cases hwaiting
      · have hsome := (adbConnect_ready (hready i) hservice).mp (Option.isSome_of_eq_some hfd)
        exact hsome.2
    next => cases h
  · intro hlen
    have hfits := (svc_inBounds_iff tool hnul).mpr (Nat.lt_of_le_of_lt hlen (by decide))
    have hpos : 1 ≤ (text "shell:" ++ commandLine tool args).length := by
      rw [length_append]
      exact Nat.le_add_right_of_le (by decide)
    obtain ⟨reads, hfd⟩ := Option.isSome_iff_exists.mp
      ((adbConnect_ready (hready w.requests.length) hservice).mpr ⟨hpos, hlen⟩)
    have hloop : connectLoop (text "shell:" ++ commandLine tool args) 1 w = (.ok reads,
        { w with requests := w.requests ++ [text "shell:" ++ commandLine tool args] }) := by
      rw [connectLoop, Proc.bind_of_ok _ (adbConnect_apply _ w), hfd]
      rfl
    refine ⟨0, paxStreamAndParseRet reads (tool = .systool),
      { w with requests := w.requests ++ [text "shell:" ++ commandLine tool args] }, ?_⟩
    rw [paxToolCommand, if_pos hfits, svc_string tool hnul hfits, Proc.bind_of_ok _ hloop]
    rfl

theorem writex_count {bytes : List Byte} {n : ℕ} (hne : bytes ≠ []) (hlen : bytes.length ≤ n + 1)
    (results : List WriteResult) :
    writex bytes (.count n :: results) = ⟨bytes, true, results⟩ := by
  obtain ⟨b, bytes, rfl⟩ := exists_cons_of_ne_nil hne
  rw [length_cons] at hlen
  rw [writex, drop_of_length_le (by omega), take_of_length_le (by omega)]
  simp [writex]

def online : Client.Env :=
  { running [] with
    service := some ⟨[.data (text "OKAY"), .data (text "OKAY")],
      [.count 3, .count 1023, .count 3, .count 1023]⟩ }

theorem request_online (hpos : 1 ≤ service.length) (hlen : service.length ≤ 1024)
    (reads : List ReadResult) (writes : List WriteResult) :
    request (Sockets.Server.hex4 service.length ++ service)
        ⟨.data (text "OKAY") :: reads, .count 3 :: .count 1023 :: writes⟩ =
      .ok ⟨reads, writes⟩ := by
  have hhex : (Sockets.Server.hex4 service.length).length = 4 := rfl
  have hne : Sockets.Server.hex4 service.length ≠ [] := cons_ne_nil _ _
  have hread : readx 4 (.data (text "OKAY") :: reads) = some (text "OKAY", reads) := by
    simp [readx, text]
  have hstatus : adbStatus (.data (text "OKAY") :: reads) = .ok reads := by
    rw [adbStatus, hread]
    exact if_pos rfl
  rw [request, sendService, take_left' hhex, drop_left' hhex,
    writex_count hne (by rw [hhex]), Written.andThen, if_pos rfl,
    writex_count (ne_nil_of_length_pos hpos) hlen]
  dsimp only
  rw [if_pos rfl, hstatus]

theorem ready_online : Ready online where
  server := by decide
  device := by
    intro service hpos hlen
    have hswitch : switchTransport online ⟨[.data (text "OKAY"), .data (text "OKAY")],
        [.count 3, .count 1023, .count 3, .count 1023]⟩ =
          .ok ⟨[.data (text "OKAY")], [.count 3, .count 1023]⟩ := by
      decide
    have hserved := request_online hpos hlen
    rw [connectTo, Forward.connectBytes_of_length hpos hlen]
    dsimp only [online]
    cases (text "host").isPrefixOf service with
    | true =>
      rw [if_pos rfl]
      dsimp only
      rw [hserved]
      exact ⟨_, rfl⟩
    | false =>
      rw [if_neg Bool.false_ne_true]
      rw [← online, hswitch]
      dsimp only
      rw [hserved]
      exact ⟨_, rfl⟩

def World.idle : World where
  sync := .hearing []
  dirs := fun _ => ⟨false, .nil, trivial⟩
  envs := fun _ => online
  requests := []

theorem tool_command_returns_sysver :
    ∃ more ret w', paxToolCommand more .systool [text "sysver"] .idle = (.ok ret, w') :=
  (tool_command_returns_iff .systool [text "sysver"] .idle (by decide)
    fun _ => ready_online).mpr (by decide)

/-- An argument of 1100 bytes fits into the buffer, and the command goes on asking for a service
with a name that `_adb_connect` never sends. -/
theorem tool_command_waits :
    (svc .systool (longArgs 1100)).InBounds 4096 ∧
      ∀ more, (paxToolCommand more .systool (longArgs 1100) .idle).1 = .error .waiting := by
  have hnul := longArgs_nul 1100
  have hlen : (text "shell:" ++ commandLine .systool (longArgs 1100)).length = 1114 :=
    length_longArgs (by decide)
  have hlt : (text "shell:" ++ commandLine .systool (longArgs 1100)).length < 4096 := by
    rw [hlen]
    decide
  have hfits := (svc_inBounds_iff .systool hnul).mpr hlt
  have hservice := shell_ne_start (commandLine .systool (longArgs 1100))
  refine ⟨hfits, fun more => ?_⟩
  rw [paxToolCommand, if_pos hfits, svc_string .systool hnul hfits]
  generalize text "shell:" ++ commandLine .systool (longArgs 1100) = service at hlen hservice ⊢
  obtain ⟨k, -, -, hwaiting | ⟨reads, i, -, hfd⟩⟩ := connectLoop_spec service (more + 1) .idle
  · rw [bind_of_error _ (Prod.ext hwaiting rfl)]
  · have hshort := (adbConnect_ready ready_online hservice).mp (Option.isSome_of_eq_some hfd)
    omega

end Waiting

section Cleaning

variable {tool : DeviceTool} {argv args : List (List Byte)} {localFile path : Path} {w w' : World}
  {more : ℕ} {ret : ℤ}

def rmService (path : Path) : List Byte := text "shell:rm " ++ escapeArg path

def toolService (tool : DeviceTool) (args : List (List Byte)) : List Byte :=
  text "shell:" ++ commandLine tool args

def Sends (path : Path) (c c' : Sync.Client) : Prop :=
  ∃ mode, Sync.requestLog path mode <:+: c'.sent.drop c.sent.length

def pushCode (w : World) (localFile : Path) : Option ℤ :=
  Sync.returned (pushed w localFile (dest localFile).string)

def World.afterPush (w : World) (localFile : Path) : World :=
  { w with sync := (pushed w localFile (dest localFile).string).2 }

/-- What is expected of a command with a file that has come to `r`. -/
structure CleansUp (more : ℕ) (tool : DeviceTool) (args : List (List Byte)) (localFile : Path)
    (w : World) (r : Except Stop ℤ × World) : Prop where
  defined : r.1 ≠ .error .overflow
  /-- the tool is run on the pushed file, and only when the push has returned 0 -/
  runs : ∀ service ∈ r.2.requests.drop w.requests.length, (∃ path, service = rmService path) ∨
    pushCode w localFile = some 0 ∧
      ∀ path, Sends path w.sync r.2.sync → service = toolService tool (args ++ [path])
  /-- what has been sent is removed before the command returns -/
  removes : ∀ ret, r.1 = .ok ret → ∀ path, Sends path w.sync r.2.sync →
    rmService path ∈ r.2.requests.drop w.requests.length
  /-- without the file the result is 1; otherwise it is that of the push or, if this is 0, that of
  the tool -/
  result : ∀ ret, r.1 = .ok ret →
    w.sync.stat localFile = none ∧ ret = 1 ∨ pushCode w localFile = some ret ∧ ret ≠ 0 ∨
      pushCode w localFile = some 0 ∧ ∃ w', paxToolCommand more tool
        (args ++ [(dest localFile).string]) (w.afterPush localFile) = (.ok ret, w')

theorem toolService_inj {path path' : Path}
    (h : toolService tool (args ++ [path]) = toolService tool (args ++ [path'])) :
    path = path' := by
  simp only [toolService, commandLine, argsText, flatMap_append, flatMap_singleton,
    append_cancel_left_eq, cons.injEq, true_and] at h
  exact escapeArg_injective h

theorem toolService_ne_rmService (tool : DeviceTool) (args : List (List Byte)) (path : Path) :
    toolService tool args ≠ rmService path := by
  intro h
  have hseventh : (toolService tool args)[6]? = (rmService path)[6]? := congrArg (·[6]?) h
  cases tool
  · exact absurd (Option.some.inj hseventh) (by decide)
  · exact absurd (Option.some.inj hseventh) (by decide)

theorem paxToolCommand_spec (more : ℕ) (tool : DeviceTool) (hnul : ∀ arg ∈ args, 0 ∉ arg)
    (hfits : (svc tool args).InBounds 4096) (w : World) :
    ∃ k, (paxToolCommand more tool args w).2 =
        { w with requests := w.requests ++ replicate (k + 1) (toolService tool args) } ∧
      (paxToolCommand more tool args w).1 ≠ .error .overflow := by
  obtain ⟨k, hw, hk, hresult⟩ := connectLoop_spec (toolService tool args) (more + 1) w
  obtain ⟨k, rfl⟩ := Nat.exists_eq_succ_of_ne_zero (hk (Nat.succ_pos more)).ne'
  rw [paxToolCommand, if_pos hfits, svc_string tool hnul hfits, ← toolService]
  refine ⟨k, ?_⟩
  rcases hloop : connectLoop (toolService tool args) (more + 1) w with ⟨e | reads, w'⟩
  · rw [hloop] at hw hresult
    rw [bind_of_error _ hloop]
    refine ⟨hw, ?_⟩
    rcases hresult with he | ⟨reads, _, he, _⟩
    · cases he
      exact nofun
    · cases he
  · rw [hloop] at hw
    rw [bind_of_ok _ hloop]
    exact ⟨hw, nofun⟩

theorem paxToolManage_withFile (hjob : job tool argv = .withFile args localFile) (w : World)
    (hstat : w.sync.stat localFile ≠ none) :
    paxToolManage more tool argv w =
      match pushCode w localFile with
      | none => (.error .overflow, w.afterPush localFile)
      | some code =>
        if code ≠ 0 then (.ok code, w.afterPush localFile)
        else runAndRemove more tool args (dest localFile).string (w.afterPush localFile) := by
  obtain ⟨st, hst⟩ := Option.ne_none_iff_exists'.mp hstat
  rw [paxToolManage, hjob]
  dsimp only
  rw [bind_of_ok _ (state_apply w), hst]
  dsimp only
  rw [bind_apply, doSyncPush, ← pushCode]
  cases pushCode w localFile with
  | none => rfl
  | some code =>
    dsimp only
    split <;> rfl

theorem paxToolManage_missing (hjob : job tool argv = .withFile args localFile) (w : World)
    (hstat : w.sync.stat localFile = none) : paxToolManage more tool argv w = (.ok 1, w) := by
  rw [paxToolManage, hjob]
  dsimp only
  rw [bind_of_ok _ (state_apply w), hstat]
  rfl

theorem runAndRemove_spec (more : ℕ) (tool : DeviceTool)
    (hnul : ∀ arg ∈ args, 0 ∉ arg) (hfile : 0 ∉ localFile)
    (hfits : (svc tool (args ++ [(dest localFile).string])).InBounds 4096) (w : World) :
    ∃ k removed, (runAndRemove more tool args (dest localFile).string w).2 =
        { w with requests := w.requests ++
          (replicate (k + 1) (toolService tool (args ++ [(dest localFile).string])) ++
            removed) } ∧
      ((runAndRemove more tool args (dest localFile).string w).1 = .error .waiting ∧ removed = [] ∨
        removed = [rmService (dest localFile).string] ∧ ∃ ret w',
          (runAndRemove more tool args (dest localFile).string w).1 = .ok ret ∧
          paxToolCommand more tool (args ++ [(dest localFile).string]) w = (.ok ret, w')) := by
  obtain ⟨k, hw, hdefined⟩ :=
    paxToolCommand_spec more tool (append_dest_nul hnul localFile) hfits w
  rw [runAndRemove]
  rcases hrun : paxToolCommand more tool (args ++ [(dest localFile).string]) w with ⟨e | ret, w'⟩
  · rw [hrun] at hw hdefined
    refine ⟨k, [], ?_⟩
    rw [bind_of_error _ hrun, append_nil]
    refine ⟨hw, .inl ⟨?_, rfl⟩⟩
    cases e with
    | overflow => exact absurd rfl hdefined
    | waiting => rfl
  · rw [hrun] at hw
    refine ⟨k, _, ?_, .inr ⟨rfl, ret, w', ?_, rfl⟩⟩
    · rw [bind_of_ok _ hrun, bind_of_ok _ (adbConnect_apply _ w'), rmbuf_string hfile]
      dsimp only at hw
      rw [hw, ← append_assoc]
      rfl
    · rw [bind_of_ok _ hrun, bind_of_ok _ (adbConnect_apply _ w')]
      rfl

theorem runAndRemove_overflow
    (h : ¬(svc tool (args ++ [path])).InBounds 4096) (w : World) :
    runAndRemove more tool args path w = (.error .overflow, w) := by
  have hrun : paxToolCommand more tool (args ++ [path]) w = (.error .overflow, w) := by
    rw [paxToolCommand, if_neg h]
    rfl
  rw [runAndRemove, bind_of_error _ hrun]

/-- After a push that has failed nothing is removed. -/
theorem cleansUp_failed_iff {code : ℤ} (hcode : pushCode w localFile = some code)
    (hne : code ≠ 0) :
    CleansUp more tool args localFile w (.ok code, w.afterPush localFile) ↔
      ∀ path, ¬Sends path w.sync (w.afterPush localFile).sync := by
  have hnone : (w.afterPush localFile).requests.drop w.requests.length = [] := drop_length
  constructor
  · intro h path hsends
    have hmem := h.removes code rfl path hsends
    rw [hnone] at hmem
    cases hmem
  · intro h
    refine ⟨nofun, ?_, fun ret _ path hsends => absurd hsends (h path), ?_⟩
    · intro service hservice
      rw [hnone] at hservice
      cases hservice
    · intro ret hret
      cases hret
      exact .inr (.inl ⟨hcode, hne⟩)

theorem cleansUp_run_iff (hnul : ∀ arg ∈ args, 0 ∉ arg) (hfile : 0 ∉ localFile)
    (hcode : pushCode w localFile = some 0)
    (hfits : (svc tool (args ++ [(dest localFile).string])).InBounds 4096) :
    CleansUp more tool args localFile w
        (runAndRemove more tool args (dest localFile).string (w.afterPush localFile)) ↔
      ∀ path, Sends path w.sync (w.afterPush localFile).sync → path = (dest localFile).string := by
  obtain ⟨k, removed, hw, hresult⟩ :=
    runAndRemove_spec more tool hnul hfile hfits (w.afterPush localFile)
  have hsync : (runAndRemove more tool args (dest localFile).string
      (w.afterPush localFile)).2.sync = (w.afterPush localFile).sync := by rw [hw]
  have hnew : (runAndRemove more tool args (dest localFile).string
      (w.afterPush localFile)).2.requests.drop w.requests.length =
        replicate (k + 1) (toolService tool (args ++ [(dest localFile).string])) ++
          removed := by
    rw [hw]
    exact drop_left
  constructor
  · intro h path hsends
    have hmem : toolService tool (args ++ [(dest localFile).string]) ∈
        replicate (k + 1) (toolService tool (args ++ [(dest localFile).string])) ++ removed :=
      mem_append_left _ mem_cons_self
    rw [← hnew] at hmem
    rcases h.runs _ hmem with ⟨path', hrm⟩ | ⟨-, hall⟩
    · exact absurd hrm (toolService_ne_rmService _ _ _)
    · rw [hsync] at hall
      exact (toolService_inj (hall path hsends)).symm
  · intro h
    refine ⟨?_, ?_, ?_, ?_⟩
    · rcases hresult with ⟨hwaiting, -⟩ | ⟨-, ret, w', hret, -⟩
      · rw [hwaiting]
        decide
      · rw [hret]
        exact nofun
    · intro service hservice
      rw [hnew] at hservice
      rw [hsync]
      rcases mem_append.mp hservice with hservice | hservice
      · refine .inr ⟨hcode, fun path hsends => ?_⟩
        rw [eq_of_mem_replicate hservice, h path hsends]
      · rcases hresult with ⟨-, rfl⟩ | ⟨rfl, -⟩
        · cases hservice
        · exact .inl ⟨_, mem_singleton.mp hservice⟩
    · intro ret hret path hsends
      rw [hsync] at hsends
      rw [hnew, h path hsends]
      rcases hresult with ⟨hwaiting, -⟩ | ⟨rfl, -⟩
      · cases hwaiting.symm.trans hret
      · exact mem_append_right _ mem_cons_self
    · intro ret hret
      rcases hresult with ⟨hwaiting, -⟩ | ⟨-, ret', w', hret', hrun⟩
      · cases hwaiting.symm.trans hret
      · cases hret'.symm.trans hret
        exact .inr (.inr ⟨hcode, w', hrun⟩)

/-- A command with a file cleans up exactly when every `SEND` was for the path that the tool is
given and the push has returned 0, and nothing is read or written out of bounds. -/
theorem file_command_cleans_up_iff (more : ℕ) (tool : DeviceTool) (argv args : List (List Byte))
    (localFile : Path) (w : World) (hjob : job tool argv = .withFile args localFile)
    (hnul : ∀ arg ∈ argv, 0 ∉ arg) :
    CleansUp more tool args localFile w (paxToolManage more tool argv w) ↔
      (w.sync.stat localFile ≠ none → ∃ code, pushCode w localFile = some code ∧
        (code = 0 → (svc tool (args ++ [(dest localFile).string])).InBounds 4096) ∧
        ∀ path, Sends path w.sync (w.afterPush localFile).sync →
          code = 0 ∧ path = (dest localFile).string) := by
  obtain ⟨hargs, hfile⟩ := withFile_nul hjob hnul
  by_cases hstat : w.sync.stat localFile = none
  · rw [paxToolManage_missing hjob w hstat]
    refine iff_of_true ⟨nofun, ?_, ?_, ?_⟩ fun h => absurd hstat h
    · intro service hservice
      rw [drop_length] at hservice
      cases hservice
    · rintro ret - path ⟨mode, hinfix⟩
      rw [drop_length, infix_nil] at hinfix
      cases hinfix
    · intro ret hret
      cases hret
      exact .inl ⟨hstat, rfl⟩
  rw [paxToolManage_withFile hjob w hstat]
  simp only [ne_eq, hstat, not_false_eq_true, true_implies]
  cases hcode : pushCode w localFile with
  | none =>
    refine iff_of_false (fun h => h.defined rfl) ?_
    rintro ⟨code, hcode', -⟩
    cases hcode'
  | some code =>
    simp only [Option.some_inj, exists_eq_left']
    by_cases hzero : code = 0
    · subst hzero
      rw [if_neg (not_not.mpr rfl)]
      by_cases hfits : (svc tool (args ++ [(dest localFile).string])).InBounds 4096
      · rw [cleansUp_run_iff hargs hfile hcode hfits]
        simp [hfits]
      · rw [runAndRemove_overflow hfits]
        exact iff_of_false (fun h => h.defined rfl) fun h => hfits (h.1 rfl)
    · rw [if_pos hzero, cleansUp_failed_iff hcode hzero]
      simp [hzero]

def World.withFile (words : List UInt32) : World :=
  { World.idle with
    sync := { Sync.Client.hearing words with
      content := fun _ => some [1]
      stat := fun _ => some (0x81a4, 0)
      reads := [.count 0, .count 0] } }

def installArgv : List (List Byte) := [text "systool", text "install", text "/l/f"]

theorem Sends.header {c c' : Sync.Client} (h : Sends path c c') :
    ∃ i, ((c'.sent.drop c.sent.length)[i]?.map fun e => e.bytes.take 4) = some (text "SEND") ∧
      (c'.sent.drop c.sent.length)[i + 1]? = some ⟨path, true⟩ := by
  obtain ⟨mode, before, after, hlog⟩ := h
  refine ⟨before.length, ?_, ?_⟩
  · rw [← hlog, append_assoc, getElem?_append_right le_rfl, Nat.sub_self]
    rfl
  · rw [← hlog, append_assoc, getElem?_append_right (by omega), Nat.add_sub_cancel_left]
    rfl

/-- The file is accepted and removed in the end. -/
theorem installed_file_removed :
    CleansUp 0 .systool [text "install"] (text "/l/f")
      (.withFile [Sync.ID_STAT, 0, 0, 0, Sync.ID_OKAY, 0])
      (paxToolManage 0 .systool installArgv
        (.withFile [Sync.ID_STAT, 0, 0, 0, Sync.ID_OKAY, 0])) := by
  refine (file_command_cleans_up_iff 0 .systool installArgv [text "install"] (text "/l/f")
    (.withFile [Sync.ID_STAT, 0, 0, 0, Sync.ID_OKAY, 0]) (by decide) (by decide)).mpr fun _ =>
      ⟨0, by decide +kernel, fun _ => by decide, fun path hsends => ⟨rfl, ?_⟩⟩
  obtain ⟨i, hheader, hnext⟩ := hsends.header
  -- the third message is the only such header
  have hlength : ((World.withFile [Sync.ID_STAT, 0, 0, 0, Sync.ID_OKAY, 0]).afterPush
      (text "/l/f")).sync.sent.length = 8 := by decide +kernel
  have hthird : ∀ i < 8, (((World.withFile [Sync.ID_STAT, 0, 0, 0, Sync.ID_OKAY, 0]).afterPush
      (text "/l/f")).sync.sent[i]?.map fun e => e.bytes.take 4) = some (text "SEND") → i = 2 := by
    decide +kernel
  have hfourth : ((World.withFile [Sync.ID_STAT, 0, 0, 0, Sync.ID_OKAY, 0]).afterPush
      (text "/l/f")).sync.sent[3]? = some ⟨(dest (text "/l/f")).string, true⟩ := by decide +kernel
  have hlt := (List.getElem?_eq_some_iff.mp hnext).1
  rw [List.length_drop, hlength] at hlt
  obtain rfl := hthird i (by omega) hheader
  exact (Sync.Sent.mk.inj (Option.some.inj (hnext.symm.trans hfourth))).1

/-- The device refuses the file after the `SEND` request. The command returns 1, and no request to
remove the file is made. -/
theorem refused_file_stays :
    (paxToolManage 0 .systool installArgv
      (.withFile [Sync.ID_STAT, 0, 0, 0, Sync.ID_FAIL, 0])).1 = .ok 1 ∧
    Sends (text "/data/local/tmp/f") (World.withFile [Sync.ID_STAT, 0, 0, 0, Sync.ID_FAIL, 0]).sync
      (paxToolManage 0 .systool installArgv
        (.withFile [Sync.ID_STAT, 0, 0, 0, Sync.ID_FAIL, 0])).2.sync ∧
    ¬CleansUp 0 .systool [text "install"] (text "/l/f")
      (.withFile [Sync.ID_STAT, 0, 0, 0, Sync.ID_FAIL, 0])
      (paxToolManage 0 .systool installArgv
        (.withFile [Sync.ID_STAT, 0, 0, 0, Sync.ID_FAIL, 0])) := by
  have hret : (paxToolManage 0 .systool installArgv
      (.withFile [Sync.ID_STAT, 0, 0, 0, Sync.ID_FAIL, 0])).1 = .ok 1 := by decide +kernel
  have hsends : Sends (text "/data/local/tmp/f")
      (World.withFile [Sync.ID_STAT, 0, 0, 0, Sync.ID_FAIL, 0]).sync
      (paxToolManage 0 .systool installArgv
        (.withFile [Sync.ID_STAT, 0, 0, 0, Sync.ID_FAIL, 0])).2.sync := by
    refine ⟨0x81a4, ?_⟩
    decide +kernel
  have hrequests : (paxToolManage 0 .systool installArgv
      (.withFile [Sync.ID_STAT, 0, 0, 0, Sync.ID_FAIL, 0])).2.requests = [] := by decide +kernel
  refine ⟨hret, hsends, fun h => ?_⟩
  have hmem := h.removes 1 hret _ hsends
  rw [hrequests] at hmem
  cases hmem

end Cleaning

end PaxAdb.Tool
