import PaxAdb.LittleEndian
import PaxAdb.ExactTransfer
import PaxAdb.Proc
import PaxAdb.SocketOps

/-!
# The sync client

`file_sync_client.c` talks to the sync service of the device over one connection. Its functions are
procedures on a `Client`: what still arrives from the device, the results of the writes and of the
local calls still to be made, and what has been done so far. A function that returns 0 ends with a
result, and `Stop.ret` is its return with another code.
-/

namespace PaxAdb.Sync

open LittleEndian Proc

export Sockets (text cString)

abbrev Path := List Byte

def MKID (a b c d : Char) : UInt32 := a.val ||| (b.val <<< 8) ||| (c.val <<< 16) ||| (d.val <<< 24)

def ID_STAT : UInt32 := MKID 'S' 'T' 'A' 'T'
def ID_LIST : UInt32 := MKID 'L' 'I' 'S' 'T'
def ID_SEND : UInt32 := MKID 'S' 'E' 'N' 'D'
def ID_RECV : UInt32 := MKID 'R' 'E' 'C' 'V'
def ID_DENT : UInt32 := MKID 'D' 'E' 'N' 'T'
def ID_DONE : UInt32 := MKID 'D' 'O' 'N' 'E'
def ID_DATA : UInt32 := MKID 'D' 'A' 'T' 'A'
def ID_OKAY : UInt32 := MKID 'O' 'K' 'A' 'Y'
def ID_FAIL : UInt32 := MKID 'F' 'A' 'I' 'L'
def ID_QUIT : UInt32 := MKID 'Q' 'U' 'I' 'T'

def SYNC_DATA_MAX : ℕ := 64 * 1024

def S_ISDIR (mode : UInt32) : Prop := mode &&& 0xf000 = 0x4000
def S_ISREG (mode : UInt32) : Prop := mode &&& 0xf000 = 0x8000
def S_ISLNK (mode : UInt32) : Prop := mode &&& 0xf000 = 0xa000
def S_ISCHR (mode : UInt32) : Prop := mode &&& 0xf000 = 0x2000
def S_ISBLK (mode : UInt32) : Prop := mode &&& 0xf000 = 0x6000

instance : DecidablePred S_ISDIR := fun mode => inferInstanceAs (Decidable (mode &&& _ = _))
instance : DecidablePred S_ISREG := fun mode => inferInstanceAs (Decidable (mode &&& _ = _))
instance : DecidablePred S_ISLNK := fun mode => inferInstanceAs (Decidable (mode &&& _ = _))
instance : DecidablePred S_ISCHR := fun mode => inferInstanceAs (Decidable (mode &&& _ = _))
instance : DecidablePred S_ISBLK := fun mode => inferInstanceAs (Decidable (mode &&& _ = _))

def toInt (x : UInt32) : ℤ := if x.toNat < 2 ^ 31 then x.toNat else x.toNat - 2 ^ 32

def toSize (len : ℤ) : ℕ := (len % 2 ^ 64).toNat

inductive CallResult where
  | ok
  | eexist
  | failed
  deriving DecidableEq, Repr

/-- One `adb_read` of a local file: `count n` returns at most `n + 1` of the bytes that are left. -/
inductive FileRead where
  | count (n : ℕ)
  | eintr
  | error
  deriving DecidableEq, Repr

inductive Touch where
  | unlink (path : Path)
  | mkdir (path : Path)
  | creat (path : Path)
  deriving DecidableEq, Repr

/-- A `writex` to the connection: the bytes that went out, and whether these were all. -/
structure Sent where
  bytes : List Byte
  ok : Bool
  deriving DecidableEq, Repr

structure Client where
  /-- `adb_connect("sync:")` has a connection -/
  connected : Bool
  /-- what the device sends -/
  arrivals : List ReadResult
  /-- the results of the writes to the connection -/
  results : List WriteResult
  sent : List Sent
  /-- the length fields that were looked at -/
  lengths : List UInt32
  /-- the room a `readx` has, and the length it is asked for -/
  requests : List (ℕ × ℕ)
  /-- the results of the calls on local paths, successes when they are used up -/
  calls : List CallResult
  /-- the results of the reads of local files, errors when they are used up -/
  reads : List FileRead
  /-- the results of the writes to local files -/
  writes : List WriteResult
  /-- the bytes of a local file, or the target of a symbolic link -/
  content : Path → Option (List Byte)
  /-- `st_mode` and `st_mtime` of a local path -/
  stat : Path → Option (UInt32 × UInt32)
  touched : List Touch

/-- An early return, or the end of the bound on the rounds of a loop, which is no return. -/
inductive Stop where
  | ret (code : ℤ)
  | exhausted
  deriving DecidableEq, Repr

abbrev Call := Proc Client Stop

def returned {α : Type} (x : Except Stop α × Client) : Option ℤ :=
  match x.1 with
  | .ok _ => some 0
  | .error (.ret code) => some code
  | .error .exhausted => none

def fail {α : Type} : Call α := exit (.ret (-1))

def orReturn1 {α : Type} : Call α → Call α :=
  exitAs (fun
    | .ret _ => .ret 1
    | .exhausted => .exhausted)

section Connection

def Client.wrote (c : Client) (w : Written (List WriteResult)) : Client :=
  { c with results := w.rest, sent := c.sent ++ [⟨w.bytes, w.ok⟩] }

def tryWritex (bytes : List Byte) : Call Bool := fun c =>
  (.ok (PaxAdb.writex bytes c.results).ok, c.wrote (PaxAdb.writex bytes c.results))

def writex (bytes : List Byte) : Call Unit := do
  let ok ← tryWritex bytes
  if ok then pure () else fail

def Client.ask (c : Client) (room n : ℕ) (rest : List ReadResult) : Client :=
  { c with requests := c.requests ++ [(room, n)], arrivals := rest }

/-- `readx` of `len` bytes into a buffer with room for `room`. The `size_t` of a negative length
reaches beyond the memory of a process, and `read` fails with `EFAULT`. -/
def readx (room : ℕ) (len : ℤ) : Call (List Byte) := fun c =>
  let n := toSize len
  if n < 2 ^ 63 then
    match PaxAdb.readx n c.arrivals with
    | some (bytes, rest) => (.ok bytes, c.ask room n rest)
    | none => (.error (.ret (-1)), c.ask room n [])
  else (.error (.ret (-1)), c.ask room n c.arrivals)

def readMsg (n : ℕ) : Call (List UInt32) := do
  let bytes ← readx (4 * n) (4 * n)
  pure (decodeWords bytes)

def Client.look (c : Client) (field : UInt32) : Client :=
  { c with lengths := c.lengths ++ [field] }

def lengthField (field : UInt32) : Call ℤ := fun c => (.ok (toInt field), c.look field)

def request (id : UInt32) (path : Path) : Call Unit := do
  writex (encodeWords [id, UInt32.ofNat path.length])
  writex path

structure StatMsg where
  mode : UInt32
  size : UInt32
  time : UInt32
  deriving DecidableEq, Repr

def statRequest (path : Path) : Call StatMsg := do
  request ID_STAT path
  let msg ← readMsg 4
  match msg with
  | [id, mode, size, time] => if id = ID_STAT then pure ⟨mode, size, time⟩ else fail
  | _ => fail

def syncReadtime (path : Path) : Call (UInt32 × UInt32) := do
  let msg ← statRequest path
  pure (msg.time, msg.mode)

def syncReadmode (path : Path) : Call UInt32 := do
  let msg ← statRequest path
  pure msg.mode

def syncQuit : Call Unit := do
  let _ ← tryWritex (encodeWords [ID_QUIT, 0])
  pure ()

def readFailMessage (size : UInt32) : Call Unit := do
  let len ← lengthField size
  let _ ← readx 256 (if len > 256 then 256 else len)
  pure ()

end Connection

section LocalCalls

def nextCall : Call CallResult := fun c =>
  match c.calls with
  | [] => (.ok .ok, c)
  | r :: calls => (.ok r, { c with calls := calls })

def nextRead : Call FileRead := fun c =>
  match c.reads with
  | [] => (.ok .error, c)
  | r :: reads => (.ok r, { c with reads := reads })

def Client.touch (c : Client) (t : Touch) : Client := { c with touched := c.touched ++ [t] }

def Client.setContent (c : Client) (path : Path) (data : Option (List Byte)) : Client :=
  { c with content := Function.update c.content path data }

def adbUnlink (path : Path) : Call Unit := do
  let r ← nextCall
  update (fun c =>
    if r = .ok then (c.touch (.unlink path)).setContent path none else c.touch (.unlink path))

def adbMkdir (path : Path) : Call CallResult := do
  let r ← nextCall
  update (fun c => c.touch (.mkdir path))
  pure r

def adbCreat (path : Path) : Call Bool := do
  let r ← nextCall
  update (fun c =>
    if r = .ok then (c.touch (.creat path)).setContent path (some []) else c.touch (.creat path))
  pure (r = .ok)

def writeLocal (path : Path) (bytes : List Byte) : Call Unit := fun c =>
  let w := PaxAdb.writex bytes c.writes
  let c := { c with
    writes := w.rest
    content := Function.update c.content path ((c.content path).map (· ++ w.bytes)) }
  if w.ok then (.ok (), c) else (.error (.ret (-1)), c)

def dirPrefixes (name : Path) : List Path :=
  ((List.range name.length).filter (fun i => 0 < i ∧ name[i]? = some 0x2f)).map (name.take ·)

def mkdirsLoop : List Path → Call Unit
  | [] => pure ()
  | path :: paths => do
      let r ← adbMkdir path
      if r = .failed then pure () else mkdirsLoop paths

def mkdirs (name : Path) : Call Unit := mkdirsLoop (dirPrefixes name)

def baseName (path : Path) : Path := (path.reverse.takeWhile (· ≠ 0x2f)).reverse

def setTimeAndMode : Call Unit := do
  let r₁ ← nextCall
  let r₂ ← nextCall
  if r₁ = .ok ∧ r₂ = .ok then pure () else fail

def copyAttributes (copyAttrs : Bool) : Call Unit :=
  if copyAttrs then orReturn1 setTimeAndMode else pure ()

end LocalCalls

section Receive

def remoteError (lpath : Path) (id size : UInt32) : Call Unit := do
  adbUnlink lpath
  if id = ID_FAIL then readFailMessage size else pure ()

def recvData (lpath : Path) (size : UInt32) (next : UInt32 → UInt32 → Call Unit) : Call Unit := do
  let len ← lengthField size
  if len > SYNC_DATA_MAX then fail
  else do
    let bytes ← readx SYNC_DATA_MAX len
    writeLocal lpath bytes
    let msg ← readMsg 2
    match msg with
    | [id, size] => next id size
    | _ => fail

def recvLoop (lpath : Path) : ℕ → UInt32 → UInt32 → Call Unit
  | 0, _, _ => exit .exhausted
  | fuel + 1, id, size =>
      if id = ID_DONE then pure ()
      else if id ≠ ID_DATA then remoteError lpath id size
      else recvData lpath size (recvLoop lpath fuel)

def Client.fuel (c : Client) : ℕ := (arrived c.arrivals).length + 1

def recvRequest (rpath : Path) (showProgress : Bool) : Call (List UInt32) :=
  if 1024 < rpath.length then fail
  else do
    let _ ← (if showProgress then statRequest rpath else pure ⟨0, 0, 0⟩)
    request ID_RECV rpath
    readMsg 2

def openTarget (lpath : Path) : Call Bool := do
  adbUnlink lpath
  mkdirs lpath
  adbCreat lpath

def recvReply (lpath : Path) : List UInt32 → Call Unit
  | [id, size] =>
      if id = ID_DATA ∨ id = ID_DONE then do
        let created ← openTarget lpath
        if created then do
          let c ← state
          recvLoop lpath c.fuel id size
        else fail
      else remoteError lpath id size
  | _ => fail

def syncRecv (rpath lpath : Path) (showProgress : Bool) : Call Unit := do
  let msg ← recvRequest rpath showProgress
  recvReply lpath msg

end Receive

section Send

def dataMsg (bytes : List Byte) : List Byte :=
  encodeWords [ID_DATA, UInt32.ofNat bytes.length] ++ bytes

def writeDataLoop : ℕ → List Byte → Call Bool
  | 0, _ => pure false
  | fuel + 1, left => do
      let r ← nextRead
      match r with
      | .eintr => writeDataLoop fuel left
      | .error => pure true
      | .count n =>
          let bytes := left.take (min (n + 1) SYNC_DATA_MAX)
          if bytes = [] then pure true
          else do
            let ok ← tryWritex (dataMsg bytes)
            if ok then writeDataLoop fuel (left.drop bytes.length) else pure false

def writeDataFile (path : Path) (showProgress : Bool) : Call Bool := do
  let opened ← nextCall
  if opened ≠ .ok then pure false
  else do
    let stated ← (if showProgress then nextCall else pure .ok)
    if stated ≠ .ok then pure false
    else do
      let c ← state
      writeDataLoop (c.reads.length + 1) ((c.content path).getD [])

def writeDataLink (path : Path) : Call Bool := do
  let r ← nextCall
  if r ≠ .ok then pure false
  else do
    let c ← state
    tryWritex (dataMsg (((c.content path).getD []).take (SYNC_DATA_MAX - 1) ++ [0]))

def modeText (mode : UInt32) : List Byte := text ("," ++ toString (toInt mode))

def sendRequest (rpath : Path) (mode : UInt32) : Call Unit :=
  if 1024 < rpath.length then fail
  else do
    writex (encodeWords [ID_SEND, UInt32.ofNat (rpath.length + (modeText mode).length)])
    writex rpath
    writex (modeText mode)

def sendReply : Call Unit := do
  let msg ← readMsg 2
  match msg with
  | [id, msglen] =>
      if id = ID_OKAY then pure ()
      else if id = ID_FAIL then do
        readFailMessage msglen
        fail
      else fail
  | _ => fail

def syncSend (lpath rpath : Path) (mtime mode : UInt32) (showProgress : Bool) : Call Unit := do
  sendRequest rpath mode
  -- the result of either function is not used
  let _ ← (
    if S_ISREG mode then writeDataFile lpath showProgress
    else if S_ISLNK mode then writeDataLink lpath
    else fail)
  writex (encodeWords [ID_DONE, mtime])
  sendReply

end Send

section List

structure Entry where
  mode : UInt32
  size : UInt32
  time : UInt32
  name : Path
  deriving DecidableEq, Repr

variable {β : Type}

def syncLsLoop (func : β → Entry → β) : ℕ → β → Call β
  | 0, _ => exit .exhausted
  | fuel + 1, cookie => do
      let msg ← readMsg 5
      match msg with
      | [id, mode, size, time, namelen] =>
          if id = ID_DONE then pure cookie
          else if id ≠ ID_DENT then fail
          else do
            let len ← lengthField namelen
            if len > 256 then fail
            else do
              let buf ← readx 256 len
              syncLsLoop func fuel (func cookie ⟨mode, size, time, cString buf⟩)
      | _ => fail

def syncLs (path : Path) (func : β → Entry → β) (cookie : β) : Call β :=
  if 1024 < path.length then fail
  else do
    request ID_LIST path
    let c ← state
    syncLsLoop func c.fuel cookie

structure CopyInfo where
  src : Path
  dst : Path
  time : UInt32
  mode : UInt32
  size : UInt32
  flag : Bool
  deriving DecidableEq, Repr

def mkcopyinfo (spath dpath name : Path) (isdir : Bool) : CopyInfo where
  src := if isdir then spath ++ name ++ [0x2f] else spath ++ name
  dst := if isdir then dpath ++ name ++ [0x2f] else dpath ++ name
  time := 0
  mode := 0
  size := 0
  flag := false

structure Lists where
  filelist : List CopyInfo
  dirlist : List CopyInfo

def syncLsBuildListCb (rpath lpath : Path) (args : Lists) (e : Entry) : Lists :=
  if S_ISDIR e.mode then
    if e.name = text "." ∨ e.name = text ".." then args
    else { args with dirlist := mkcopyinfo rpath lpath e.name true :: args.dirlist }
  else if S_ISREG e.mode ∨ S_ISLNK e.mode then
    let ci := { mkcopyinfo rpath lpath e.name false with
      time := e.time, mode := e.mode, size := e.size }
    { args with filelist := ci :: args.filelist }
  else args

def buildDirs (build : CopyInfo → List CopyInfo → Call (List CopyInfo)) :
    List CopyInfo → List CopyInfo → Call (List CopyInfo)
  | [], filelist => pure filelist
  | dir :: dirlist, filelist => do
      let filelist ← build dir filelist
      buildDirs build dirlist filelist

/-- `remote_build_list`; every level of the recursion has read some messages. -/
def remoteBuildList : ℕ → Path → Path → List CopyInfo → Call (List CopyInfo)
  | 0, _, _, _ => exit .exhausted
  | fuel + 1, rpath, lpath, filelist => do
      let args ← orReturn1 (syncLs rpath (syncLsBuildListCb rpath lpath) ⟨filelist, []⟩)
      buildDirs (fun dir filelist => remoteBuildList fuel dir.src dir.dst filelist)
        args.dirlist args.filelist

def withSlash (path : Path) : Path := if path.getLast? = some 0x2f then path else path ++ [0x2f]

def pullFile (copyAttrs : Bool) (ci : CopyInfo) : Call Unit :=
  if ci.flag = false then do
    orReturn1 (syncRecv ci.src ci.dst false)
    copyAttributes copyAttrs
  else pure ()

def pullFiles (copyAttrs : Bool) : List CopyInfo → Call Unit
  | [] => pure ()
  | ci :: filelist => do
      pullFile copyAttrs ci
      pullFiles copyAttrs filelist

def copyRemoteDirLocal (rpath lpath : Path) (copyAttrs : Bool) : Call Unit :=
  if rpath = [] ∨ lpath = [] then fail
  else do
    let c ← state
    let filelist ← exitAs (fun | .ret _ => .ret (-1) | .exhausted => .exhausted)
      (remoteBuildList c.fuel (withSlash rpath) (withSlash lpath) [])
    pullFiles copyAttrs filelist

end List

section Commands

def adbConnect : Call Unit := fun c =>
  if c.connected then (.ok (), c) else (.error (.ret 1), c)

def pullTarget (rpath lpath : Path) (c : Client) : Path :=
  match c.stat lpath with
  | some (mode, _) => if S_ISDIR mode then lpath ++ [0x2f] ++ baseName rpath else lpath
  | none => lpath

def pullStart (rpath : Path) : Call (UInt32 × UInt32) := do
  adbConnect
  orReturn1 (syncReadtime rpath)

def IsFile (mode : UInt32) : Prop := S_ISREG mode ∨ S_ISLNK mode ∨ S_ISCHR mode ∨ S_ISBLK mode

instance : DecidablePred IsFile := fun _ => inferInstanceAs (Decidable (_ ∨ _))

def pullEnd (rpath target : Path) (showProgress copyAttrs : Bool) : Call Unit := do
  orReturn1 (syncRecv rpath target showProgress)
  copyAttributes copyAttrs
  syncQuit

def doSyncPull (rpath lpath : Path) (showProgress copyAttrs : Bool) : Call Unit := do
  let (_, mode) ← pullStart rpath
  if mode = 0 then exit (.ret 1)
  else if IsFile mode then do
    let c ← state
    pullEnd rpath (pullTarget rpath lpath c) showProgress copyAttrs
  else if S_ISDIR mode then do
    orReturn1 (copyRemoteDirLocal rpath lpath copyAttrs)
    syncQuit
  else exit (.ret 1)

def pushTarget (lpath rpath : Path) : Call Path := do
  let mode ← orReturn1 (syncReadmode rpath)
  pure (if mode ≠ 0 ∧ S_ISDIR mode then rpath ++ [0x2f] ++ baseName lpath else rpath)

def pushEnd (lpath rpath : Path) (mtime mode : UInt32) (showProgress : Bool) : Call Unit := do
  let target ← pushTarget lpath rpath
  orReturn1 (syncSend lpath target mtime mode showProgress)
  syncQuit

/-- `do_sync_push`; a directory is left to `copyLocalDirRemote`. -/
def doSyncPush (copyLocalDirRemote : Path → Path → Call Unit) (lpath rpath : Path)
    (showProgress : Bool) : Call Unit := do
  adbConnect
  let c ← state
  match c.stat lpath with
  | none => do
      syncQuit
      exit (.ret 1)
  | some (mode, mtime) =>
      if S_ISDIR mode then do
        orReturn1 (copyLocalDirRemote lpath rpath)
        syncQuit
      else pushEnd lpath rpath mtime mode showProgress

end Commands

end PaxAdb.Sync
