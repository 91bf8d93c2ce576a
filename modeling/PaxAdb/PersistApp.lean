import Mathlib.Data.List.DropRight
import PaxAdb.SyncRequests
import PaxAdb.ToolManage

/-!
# Where `unlink` and `push` go

Both commands ask the device for the version of `systool`. With a version of 100 or more and a path
in which `/data/resource/app/` occurs they are left to `systool`; otherwise the file is removed or
sent directly. The version is what `atoi` makes of the first 255 bytes of the answer.
-/

namespace PaxAdb.Tool

open Sockets (text cString)
open Sync (Path)
open Decimal List

section Model

def readProp : ℕ → List ReadResult → List Byte
  | _, [] => []
  | 0, _ => []
  | room + 1, .data bytes :: reads =>
      if bytes = [] then []
      else bytes.take (room + 1) ++ readProp (room + 1 - bytes.length) reads
  | _ + 1, _ :: _ => []

def getpropSvc (prop : List Byte) : StringBuffer :=
  StringBuffer.snprintf 128 (text "shell:getprop " ++ prop)

def paxGetprop (env : Client.Env) (prop : List Byte) (outlen : ℕ) : Option (List Byte) :=
  match Client.adbConnect env (getpropSvc prop).string with
  | .error _ => none
  | .ok reads => some ((readProp (outlen - 1) reads).rdropWhile fun c => c = 0x0a ∨ c = 0x0d)

def sysverProp : List Byte := text "pax.ctrl.systool.sysver"

def paxSystoolSysver (env : Client.Env) : ℤ :=
  match paxGetprop env sysverProp 256 with
  | none => -1
  | some buf => atoi (cString buf)

def appDir : List Byte := text "/data/resource/app/"

def strstr (s sub : List Byte) : Bool := (memmem s sub).isSome

inductive Action where
  | usage
  /-- `pax_tool_manage` for `systool` -/
  | manage (argv : List (List Byte))
  | doSyncUnlink (path : Path)
  | doSyncPush (lpath rpath : Path) (showProgress : Bool)
  deriving DecidableEq, Repr

def unlinkCommand (env : Client.Env) : List (List Byte) → Action
  | [path] =>
      if 100 ≤ paxSystoolSysver env ∧ strstr path appDir = true then
        .manage [text "systool", text "remove", text "persist-app", path]
      else .doSyncUnlink path
  | _ => .usage

structure PushPullArgs where
  path1 : Option Path
  path2 : Option Path
  showProgress : Bool
  copyAttrs : Bool
  deriving DecidableEq, Repr

def parsePushPullArgs : List (List Byte) → PushPullArgs
  | [] => ⟨none, none, false, false⟩
  | arg :: rest =>
      if arg = text "-p" then { parsePushPullArgs rest with showProgress := true }
      else if arg = text "-a" then { parsePushPullArgs rest with copyAttrs := true }
      else ⟨some arg, rest.head?, false, false⟩

def pushCommand (env : Client.Env) (args : List (List Byte)) : Action :=
  let parsed := parsePushPullArgs args
  match parsed.path1, parsed.path2 with
  | some lpath, some rpath =>
      if 100 ≤ paxSystoolSysver env ∧ strstr rpath appDir = true then
        .manage [text "systool", text "install", text "persist-app", lpath]
      else .doSyncPush lpath rpath parsed.showProgress
  | _, _ => .usage

end Model

section Version

theorem readProp_chunks {chunks : List (List Byte)} (h : ∀ c ∈ chunks, c ≠ []) (room : ℕ) :
    readProp room (chunks.map .data) = chunks.flatten.take room := by
  induction chunks generalizing room with
  | nil =>
    rw [map_nil, flatten_nil, take_nil, readProp]
  | cons c chunks ih =>
    cases room with
    | zero => rfl
    | succ room =>
      rw [map_cons, readProp, if_neg (h c mem_cons_self),
        ih fun d hd => h d (mem_cons_of_mem _ hd), flatten_cons, take_append]

theorem number_cString (s : List Byte) : number (cString s) = number s := by
  have hsplit := takeWhile_append_dropWhile (p := (· ≠ (0 : Byte))) (l := s)
  cases hrest : s.dropWhile (· ≠ 0) with
  | nil =>
    rw [hrest, append_nil] at hsplit
    rw [cString, hsplit]
  | cons c rest =>
    have hc : c = 0 := by
      have hne : s.dropWhile (· ≠ 0) ≠ [] := by
        rw [hrest]
        exact cons_ne_nil _ _
      have hnot := head_dropWhile_not (· ≠ (0 : Byte)) hne
      simpa only [hrest, head_cons, decide_eq_false_iff_not, not_not] using hnot
    rw [hrest, hc] at hsplit
    conv_rhs => rw [← hsplit]
    rw [number_append_nul]
    rfl

theorem number_rdropWhile (s : List Byte) :
    number (s.rdropWhile fun c => c = 0x0a ∨ c = 0x0d) = number s := by
  have hspaces : ∀ c ∈ s.rtakeWhile fun c => c = 0x0a ∨ c = 0x0d, isSpace c = true := by
    intro c hc
    have hend := mem_rtakeWhile_imp hc
    rcases of_decide_eq_true hend with rfl | rfl
    · rfl
    · rfl
  calc number (s.rdropWhile fun c => c = 0x0a ∨ c = 0x0d)
      = number ((s.rdropWhile fun c => c = 0x0a ∨ c = 0x0d) ++
          s.rtakeWhile fun c => c = 0x0a ∨ c = 0x0d) :=
        (number_append_spaces hspaces).symm
    _ = number s := by rw [rdropWhile_append_rtakeWhile]

/-- Neither the ends of lines nor what is behind a NUL matter to the version. -/
theorem sysver_of_answer {env : Client.Env} {chunks : List (List Byte)}
    (hchunks : ∀ c ∈ chunks, c ≠ [])
    (hconnect : Client.adbConnect env (getpropSvc sysverProp).string = .ok (chunks.map .data)) :
    paxSystoolSysver env = atoi (chunks.flatten.take 255) := by
  rw [paxSystoolSysver, paxGetprop, hconnect]
  dsimp only
  rw [readProp_chunks hchunks, atoi, number_cString, number_rdropWhile]
  rfl

end Version

section Routing

open Sync (Sent header requestLog sentBehind StatReply destination Writable storeAll
  ID_ULNK S_ISDIR S_ISREG)

def leading (s : List Byte) : ℤ := (number s).getD 0

/-- A number that is 100 or more in an `int`; one that a `long` cannot hold is not. -/
def TakenRecent (n : ℤ) : Prop :=
  -2 ^ 63 ≤ n ∧ n < 2 ^ 63 ∧ 100 ≤ n % 2 ^ 32 ∧ n % 2 ^ 32 < 2 ^ 31

instance : DecidablePred TakenRecent := fun _ => inferInstanceAs (Decidable (_ ∧ _))

variable (copyLocalDirRemote : Path → Path → Sync.Call Unit) (c : Sync.Client)

/-- What a command sends to the sync service behind the request for a mode. -/
def Action.sent : Action → List Sent
  | .usage => []
  | .manage _ => []
  | .doSyncUnlink path => sentBehind c (Sync.doSyncUnlink path c).2
  | .doSyncPush lpath rpath showProgress =>
      sentBehind c (Sync.doSyncPush copyLocalDirRemote lpath rpath showProgress c).2

/-- The sync service can be reached for a regular file `lpath`, names `mode` as the mode of `path`,
and takes the next request. -/
structure Serves (lpath path : Path) (lmode mode : UInt32) : Prop where
  connected : c.connected = true
  file : ∃ mtime, c.stat lpath = some (lmode, mtime)
  regular : S_ISREG lmode
  unlink : Writable path c
  reply : ∃ rest, StatReply path c mode rest ∧
    storeAll ((requestLog (destination lpath path mode) lmode).map (·.bytes))
      (c.afterStat path rest).results = true

/-- Both commands are left to `systool`, or both send their request for the path. -/
def Routed (env : Client.Env) (args : List (List Byte)) (lpath path : Path) (lmode : UInt32)
    (redirect : Prop) : Prop :=
  (redirect → unlinkCommand env [path] =
      .manage [text "systool", text "remove", text "persist-app", path] ∧
    pushCommand env args = .manage [text "systool", text "install", text "persist-app", lpath]) ∧
  (¬redirect → [⟨header ID_ULNK path, true⟩] <+:
      (unlinkCommand env [path]).sent copyLocalDirRemote c ∧
    requestLog path lmode <+: (pushCommand env args).sent copyLocalDirRemote c)

variable {env : Client.Env} {path lpath : Path} {lmode mode : UInt32} {copyLocalDirRemote c}

theorem strstr_iff (s sub : List Byte) : strstr s sub = true ↔ sub <:+: s := by
  rw [strstr, ← not_iff_not, ← memmem_eq_none_iff]
  simp

theorem le_atoi_iff (s : List Byte) : 100 ≤ atoi s ↔ TakenRecent (leading s) := by
  have hint (n : ℤ) : 100 ≤ toInt n ↔ TakenRecent n := by
    rw [toInt, Int.bmod_def, TakenRecent]
    split <;> omega
  rw [atoi, leading]
  cases number s with
  | none => decide
  | some n => exact hint n

theorem routed_iff {chunks args : List (List Byte)} {showProgress copyAttrs : Bool}
    {redirect : Prop} (hchunks : ∀ c ∈ chunks, c ≠ [])
    (hconnect : Client.adbConnect env (getpropSvc sysverProp).string = .ok (chunks.map .data))
    (hargs : parsePushPullArgs args = ⟨some lpath, some path, showProgress, copyAttrs⟩)
    (hserves : Serves c lpath path lmode mode) :
    Routed copyLocalDirRemote c env args lpath path lmode redirect ↔
      (redirect ↔ TakenRecent (leading (chunks.flatten.take 255)) ∧ appDir <:+: path) ∧
        (¬redirect → ¬S_ISDIR mode ∧ path.length ≤ 1024) := by
  have hsame : 100 ≤ paxSystoolSysver env ∧ strstr path appDir = true ↔
      TakenRecent (leading (chunks.flatten.take 255)) ∧ appDir <:+: path := by
    rw [sysver_of_answer hchunks hconnect, strstr_iff, le_atoi_iff]
  by_cases hdecision : TakenRecent (leading (chunks.flatten.take 255)) ∧ appDir <:+: path
  · have hunlink : unlinkCommand env [path] =
        .manage [text "systool", text "remove", text "persist-app", path] :=
      if_pos (hsame.mpr hdecision)
    have hpush : pushCommand env args =
        .manage [text "systool", text "install", text "persist-app", lpath] := by
      rw [pushCommand, hargs]
      exact if_pos (hsame.mpr hdecision)
    simp only [Routed, hunlink, hpush, Action.sent, hdecision, prefix_nil, reduceCtorEq,
      false_and, imp_false, not_not, and_self, implies_true, true_and, iff_true]
    tauto
  · have hunlink : unlinkCommand env [path] = .doSyncUnlink path :=
      if_neg (mt hsame.mp hdecision)
    have hpush : pushCommand env args = .doSyncPush lpath path showProgress := by
      rw [pushCommand, hargs]
      exact if_neg (mt hsame.mp hdecision)
    obtain ⟨mtime, hstat⟩ := hserves.file
    obtain ⟨rest, hreply, hwrite⟩ := hserves.reply
    rw [Routed, hunlink, hpush, Action.sent, Action.sent,
      Sync.doSyncUnlink_sends_iff hserves.connected hreply hserves.unlink,
      Sync.doSyncPush_sends_iff _ hserves.connected hstat hserves.regular hreply hwrite]
    simp only [reduceCtorEq, false_and, imp_false, hdecision, iff_false]
    tauto

/-- Both commands go where they should exactly when, for a path in the directory, the version in the
first 255 bytes is 100 or more in an `int` just when it is, for another path with the name of the
directory in it the version is old, and the path is otherwise no directory and not too long. -/
theorem persist_app_routing_iff (env : Client.Env) (chunks args : List (List Byte))
    (answer : List Byte) (lpath path : Path) (lmode mode : UInt32) (showProgress copyAttrs : Bool)
    (copyLocalDirRemote : Path → Path → Sync.Call Unit) (c : Sync.Client)
    (hchunks : ∀ c ∈ chunks, c ≠ []) (hanswer : chunks.flatten = answer)
    (hconnect : Client.adbConnect env (getpropSvc sysverProp).string = .ok (chunks.map .data))
    (hargs : parsePushPullArgs args = ⟨some lpath, some path, showProgress, copyAttrs⟩)
    (hserves : Serves c lpath path lmode mode) :
    Routed copyLocalDirRemote c env args lpath path lmode (100 ≤ leading answer ∧ appDir <+: path) ↔
      (appDir <+: path → (100 ≤ leading answer ↔ TakenRecent (leading (answer.take 255)))) ∧
      (appDir <:+: path → ¬appDir <+: path → ¬TakenRecent (leading (answer.take 255))) ∧
      (¬(100 ≤ leading answer ∧ appDir <+: path) → ¬S_ISDIR mode ∧ path.length ≤ 1024) := by
  have hinfix : appDir <+: path → appDir <:+: path := List.IsPrefix.isInfix
  rw [routed_iff hchunks hconnect hargs hserves, hanswer]
  tauto

def answering (chunks : List (List Byte)) : Client.Env :=
  { online with
    service := some ⟨.data (text "OKAY") :: .data (text "OKAY") :: chunks.map .data,
      [.count 3, .count 1023, .count 3, .count 1023]⟩ }

def Client.naming (mode : UInt32) : Sync.Client :=
  { Sync.Client.hearing [Sync.ID_STAT, mode, 1, 0] with stat := fun _ => some (0x81a4, 0) }

/-- The answer comes in two parts, and ends with a newline: one file is left to `systool`, the other
is sent. -/
theorem persist_app_routed :
    let routed := fun path => Routed (fun _ _ => pure ()) (Client.naming 0x81a4)
      (answering [text "1", text "00\n"]) [text "-p", text "f", path] (text "f") path 0x81a4
      (100 ≤ leading (text "100\n") ∧ appDir <+: path)
    routed (text "/data/resource/app/f") ∧ routed (text "/sdcard/f") := by
  intro routed
  have hrouted : ∀ path ∈ [text "/data/resource/app/f", text "/sdcard/f"], routed path := by
    intro path hpath
    have hserves : Serves (Client.naming 0x81a4) (text "f") path 0x81a4 0x81a4 := by
      rcases mem_pair.mp hpath with rfl | rfl <;>
        exact ⟨rfl, ⟨0, rfl⟩, by decide, by unfold Writable; decide +kernel, [],
          ⟨by decide +kernel, 1, 0, by decide +kernel⟩, by decide +kernel⟩
    have hargs : parsePushPullArgs [text "-p", text "f", path] =
        ⟨some (text "f"), some path, true, false⟩ := rfl
    refine (persist_app_routing_iff (answering [text "1", text "00\n"]) [text "1", text "00\n"] _
      (text "100\n") _ _ _ 0x81a4 _ _ _ (Client.naming 0x81a4) (by decide)
      (by decide) (by decide +kernel) hargs hserves).mpr ?_
    rcases mem_pair.mp hpath with rfl | rfl <;> decide +kernel
  exact ⟨hrouted _ mem_cons_self, hrouted _ (mem_cons_of_mem _ mem_cons_self)⟩

/-- A path that has the name of the directory further behind is redirected. -/
theorem persist_app_elsewhere :
    unlinkCommand (answering [text "100"]) [text "/x/data/resource/app/y"] =
        .manage [text "systool", text "remove", text "persist-app", text "/x/data/resource/app/y"] ∧
      pushCommand (answering [text "100"]) [text "f", text "/x/data/resource/app/y"] =
        .manage [text "systool", text "install", text "persist-app", text "f"] ∧
      ¬Routed (fun _ _ => pure ()) (Client.naming 0x81a4) (answering [text "100"])
        [text "f", text "/x/data/resource/app/y"] (text "f") (text "/x/data/resource/app/y") 0x81a4
        (100 ≤ leading (text "100") ∧ appDir <+: text "/x/data/resource/app/y") := by
  have hunlink : unlinkCommand (answering [text "100"]) [text "/x/data/resource/app/y"] =
      .manage [text "systool", text "remove", text "persist-app",
        text "/x/data/resource/app/y"] := by decide +kernel
  refine ⟨hunlink, by decide +kernel, fun h => ?_⟩
  have hprefix : ¬appDir <+: text "/x/data/resource/app/y" := by decide
  have hplain := (h.2 fun hand => hprefix hand.2).1
  rw [hunlink] at hplain
  cases prefix_nil.mp hplain

end Routing

end PaxAdb.Tool
