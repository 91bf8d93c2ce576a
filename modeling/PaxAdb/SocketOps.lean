import PaxAdb.Sockets

/-!
# The callbacks of local and remote sockets

`closeSocket` follows the mutual calls of the close callbacks. They run through function pointers
that are changed while a connection is being set up; the first argument bounds the depth of the
calls, and the second says whether the caller holds `socket_list_lock`.
-/

namespace PaxAdb.Sockets

open Function

def text (s : String) : List Byte := s.toList.map (fun c => UInt8.ofNat c.toNat)

def cString (bytes : List Byte) : List Byte := bytes.takeWhile (· ≠ 0)

section Writes

inductive Outcome where
  | done
  | blocked
  | failed
  deriving DecidableEq, Repr

/-- The write loop for one packet: what is left of it, the results not used, and how it ended. An
interrupted call is repeated in `local_socket_event_func` and an error in `local_socket_enqueue`. -/
def writeLoop (retry : Bool) : List WriteResult → List Byte → List Byte × List WriteResult × Outcome
  | writes, [] => ([], writes, .done)
  | [], bytes => (bytes, [], .blocked)
  | .count n :: writes, bytes => writeLoop retry writes (bytes.drop (n + 1))
  | .zero :: writes, bytes => (bytes, writes, .failed)
  | .eagain :: writes, bytes => (bytes, writes, .blocked)
  | .eintr :: writes, bytes =>
      if retry then writeLoop retry writes bytes else (bytes, writes, .failed)
  | .error :: writes, bytes => (bytes, writes, .failed)

/-- `writex` waits for a descriptor that is not ready; it gives up on other errors. -/
def writexLoop : List WriteResult → List Byte → List Byte × List WriteResult
  | writes, [] => ([], writes)
  | [], bytes => (bytes, [])
  | .count n :: writes, bytes => writexLoop writes (bytes.drop (n + 1))
  | .eagain :: writes, bytes => writexLoop writes bytes
  | .eintr :: writes, bytes => writexLoop writes bytes
  | .zero :: writes, bytes => (bytes, writes)
  | .error :: writes, bytes => (bytes, writes)

end Writes

namespace Server

variable (w : Server)

def writeStatus (a : Addr) (bytes : List Byte) : Server :=
  match w.writes with
  | .count n :: rest => { w.wrote a .status (bytes.take (n + 1)) with writes := rest }
  | _ :: rest => { w with writes := rest }
  | [] => w

def writex (a : Addr) (bytes : List Byte) : Server :=
  let (rest, writes) := writexLoop w.writes bytes
  { w.wrote a .status (bytes.take (bytes.length - rest.length)) with writes := writes }

def hex4 (n : ℕ) : List Byte :=
  let digit := fun d : ℕ => UInt8.ofNat (if d < 10 then 0x30 + d else 0x57 + d)
  [digit (n / 4096 % 16), digit (n / 256 % 16), digit (n / 16 % 16), digit (n % 16)]

def sendfailmsg (a : Addr) (reason : List Byte) : Server :=
  let header := text "FAIL" ++ hex4 (min reason.length 0xffff)
  if (writexLoop w.writes header).1 = [] then
    (w.writex a header).writex a (reason.take 0xffff)
  else w.writex a header

def insertLocal (a : Addr) (s : ASocket) : Server :=
  { w.store a s with localSocketList := w.localSocketList ++ [a] }

/-- `create_local_socket`; the id after the largest one is 1. -/
def createLocalSocket : Server × Addr :=
  let a := w.nextAddr
  let s : ASocket :=
    { id := w.localSocketNextId, closing := false, peer := none,
      fde := ⟨.none, .none, false, false⟩, queue := [], enqueue := .localSocketEnqueue,
      ready := .localSocketReady, shutdown := none, close := .localSocketClose,
      transport := none, updateNeeded := false }
  ({ w.insertLocal a s with
      nextAddr := a + 1
      localSocketNextId :=
        if (w.localSocketNextId + 1) % 2 ^ 32 = 0 then 1 else (w.localSocketNextId + 1) % 2 ^ 32
      created := w.created + 1
      owner := update w.owner w.localSocketNextId (some a)
      trace := update w.trace a { Trace.empty with bornId := w.localSocketNextId } }, a)

def connectRemote (a : Addr) (s : ASocket) (id : ℕ) (t : TransportId) : Except Fault Server :=
  if id = 0 then .error .exit
  else
    let r := w.nextAddr
    let q : ASocket :=
      { id := id, closing := false, peer := some a, fde := ⟨.none, .none, false, false⟩,
        queue := [], enqueue := .remoteSocketEnqueue, ready := .remoteSocketReady,
        shutdown := some .remoteSocketShutdown, close := .remoteSocketClose, transport := some t,
        updateNeeded := false }
    let w := (w.store r q).store a { s with peer := some r }
    .ok { w with
      nextAddr := r + 1
      disconnects := update w.disconnects t (w.disconnects t ++ [r])
      trace := update w.trace a { w.trace a with remoteId := some id } }

/-- `find_local_socket` stops at the first socket with the id, whatever its peer is. -/
def findLocalSocket (localId peerId : ℕ) : Except Fault (Option Addr) :=
  match w.localSocketList.find? (fun a => (w.socket a).any (·.id = localId)) with
  | none => .ok none
  | some a => do
      let s ← w.get a
      if peerId = 0 then return some a
      match s.peer with
      | none => return none
      | some p => do
          let q ← w.get p
          return if q.id = peerId then some a else none

def localSocketDestroy (a : Addr) : Server :=
  { w.free a with
    listPending := w.listPending.erase a
    localSocketList := w.localSocketList.erase a
    localSocketClosingList := w.localSocketClosingList.erase a }

def moveToClosing (a : Addr) (s : ASocket) : Server :=
  { w.store a { s with id := 0 } with
    localSocketList := w.localSocketList.erase a
    localSocketClosingList := w.localSocketClosingList ++ [a] }

def localSocketFinish (a : Addr) : Except Fault Server := do
  let s ← w.get a
  if s.closing ∨ s.queue = [] then return w.localSocketDestroy a
  let w := w.store a { s with closing := true }
  let w ← w.fdeventDel a .fdeRead
  let s ← w.get a
  return w.moveToClosing a s

def remoteSocketShutdown (q : ASocket) : Except Fault Server := do
  let localId ← match q.peer with
    | none => pure 0
    | some p => do
        let s ← w.get p
        pure s.id
  match q.transport with
  | none => .error .exit
  | some t => return w.sendPacket ⟨.aClse, localId, q.id, []⟩ t

def callShutdown (q : ASocket) : Except Fault Server :=
  match q.shutdown with
  | some .remoteSocketShutdown => w.remoteSocketShutdown q
  | none => .ok w

end Server

/-- A call through `s->close`, or a direct call of `local_socket_close_locked`. -/
inductive Entry where
  | callback
  | locked
  deriving DecidableEq, Repr

def ASocket.plain (s : ASocket) : ASocket :=
  { s with ready := .localSocketReady, shutdown := none, close := .localSocketClose }

def closeSocket : ℕ → Bool → Entry → Addr → Server → Except Fault Server
  | 0, _, _, _, _ => .error .stackOverflow
  | depth + 1, held, .locked, a, w => do
      let s ← w.get a
      let w ← match s.peer with
        | none => pure w
        | some p => do
            let q ← w.get p
            let w ← w.callShutdown q
            let w := w.store p { q with peer := none }
            -- the comparison that avoids taking the lock twice
            let entry := if q.close = .localSocketClose then Entry.locked else .callback
            let w ← closeSocket depth held entry p w
            let s ← w.get a
            pure (w.store a { s with peer := none })
      w.localSocketFinish a
  | depth + 1, held, .callback, a, w => do
      let s ← w.get a
      match s.close with
      | .localSocketClose =>
          if held then .error .deadlock else closeSocket depth true .locked a w
      | .localSocketCloseNotify =>
          closeSocket depth held .callback a
            ((w.store a s.plain).sendfailmsg a (text "closed"))
      | .remoteSocketClose => do
          let w ← match s.peer with
            | none => pure w
            | some p => do
                let q ← w.get p
                closeSocket depth held .callback p (w.store p { q with peer := none })
          match s.transport with
          | none => .error .nullPointer
          | some t =>
              return { w.free a with
                disconnects := update w.disconnects t ((w.disconnects t).erase a) }
      | .smartSocketClose => do
          let w ← match s.peer with
            | none => pure w
            | some p => do
                let q ← w.get p
                closeSocket depth held .callback p (w.store p { q with peer := none })
          return w.free a
      | .deviceTrackerClose => do
          let w ← match s.peer with
            | none => pure w
            | some p => do
                let q ← w.get p
                closeSocket depth held .callback p (w.store p { q with peer := none })
          return { w.free a with deviceTrackerList := w.deviceTrackerList.erase a }

/-- The callbacks call each other at most four deep. -/
def closeDepth : ℕ := 4

def Server.close (w : Server) (a : Addr) : Except Fault Server :=
  closeSocket closeDepth false .callback a w

def Server.remoteSocketDisconnect (w : Server) (a : Addr) : Except Fault Server := do
  let s ← w.get a
  let w ← match s.peer with
    | none => pure w
    | some p => do
        let q ← w.get p
        (w.store p { q with peer := none }).close p
  match s.transport with
  | none => .error .nullPointer
  | some t =>
      return { w.free a with
        disconnects := update w.disconnects t ((w.disconnects t).erase a) }

end PaxAdb.Sockets
