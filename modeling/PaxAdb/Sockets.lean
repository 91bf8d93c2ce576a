import Mathlib.Logic.Function.Basic
import PaxAdb.SystemCalls

/-!
# Sockets of the server

The state of the event-driven part of the server: the `asocket` objects with the callbacks that are
installed in them, the two lists of local sockets, the trackers, the disconnect callbacks of the
transports, the descriptors waiting to be dispatched and the packets handed to the transports.

An operation of the source that touches a freed object, reads through a null pointer, takes a lock
it holds already or ends the process is an error of type `Fault`.
-/

namespace PaxAdb.Sockets

/-- The address of an `asocket`; addresses are not used twice. -/
abbrev Addr := ℕ

abbrev TransportId := ℕ

def MAX_PAYLOAD : ℕ := 4096

inductive Fault where
  | useAfterFree
  | nullPointer
  | deadlock
  | exit
  | stackOverflow
  deriving DecidableEq, Repr

inductive Command where
  | aSync
  | aCnxn
  | aOpen
  | aOkay
  | aClse
  | aWrte
  | aAuth
  | aHdsk
  | unknown (n : ℕ)
  deriving DecidableEq, Repr

/-- An `apacket` on its way to or from a transport; `data_length` is the length of `data`. -/
structure Packet where
  command : Command
  arg0 : ℕ
  arg1 : ℕ
  data : List Byte
  deriving DecidableEq, Repr

/-- A set of event bits; `FDE_ERROR` is never asked for by a socket. -/
structure Events where
  read : Bool
  write : Bool
  deriving DecidableEq, Repr

namespace Events

def none : Events := ⟨false, false⟩

def fdeRead : Events := ⟨true, false⟩

def fdeWrite : Events := ⟨false, true⟩

def union (x y : Events) : Events := ⟨x.read || y.read, x.write || y.write⟩

/-- `x & ~y` -/
def without (x y : Events) : Events := ⟨x.read && !y.read, x.write && !y.write⟩

end Events

structure Fdevent where
  /-- the event bits of `state`, what the socket waits for -/
  state : Events
  /-- reported and not yet handed to the callback -/
  events : Events
  forceEof : Bool
  /-- the descriptor was found bad by `fdevent_fd_check` -/
  bad : Bool
  deriving DecidableEq, Repr

inductive EnqueueFn where
  | localSocketEnqueue
  | remoteSocketEnqueue
  | smartSocketEnqueue
  | deviceTrackerEnqueue
  deriving DecidableEq, Repr

inductive ReadyFn where
  | localSocketReady
  | localSocketReadyNotify
  | remoteSocketReady
  | smartSocketReady
  | deviceTrackerReady
  deriving DecidableEq, Repr

inductive ShutdownFn where
  | remoteSocketShutdown
  deriving DecidableEq, Repr

inductive CloseFn where
  | localSocketClose
  | localSocketCloseNotify
  | remoteSocketClose
  | smartSocketClose
  | deviceTrackerClose
  deriving DecidableEq, Repr

structure ASocket where
  id : ℕ
  closing : Bool
  peer : Option Addr
  fde : Fdevent
  /-- the packets from `pkt_first` to `pkt_last`, each from its `ptr` on -/
  queue : List (List Byte)
  enqueue : EnqueueFn
  ready : ReadyFn
  shutdown : Option ShutdownFn
  close : CloseFn
  transport : Option TransportId
  /-- of a `device_tracker` only -/
  updateNeeded : Bool
  deriving DecidableEq, Repr

inductive ConnectionState where
  | offline
  | bootloader
  | device
  | host
  | recovery
  | noperm
  | sideload
  | unauthorized
  deriving DecidableEq, Repr

/-- What was written to a descriptor: a status message of the server itself or data of the peer. -/
inductive Source where
  | status
  | data
  deriving DecidableEq, Repr

/-- What has happened to a local socket so far; no operation of the server reads it. -/
structure Trace where
  /-- the id the socket was given when it was created -/
  bornId : ℕ
  /-- the id of the remote socket it has been connected to -/
  remoteId : Option ℕ
  /-- read from the descriptor and passed on to a transport -/
  got : List Byte
  /-- written to the descriptor -/
  output : List (Source × List Byte)
  /-- `adb_write` on the descriptor has returned 0 or a hard error -/
  failed : Bool
  /-- how many `A_WRTE` packets the socket has been given, and how many `A_OKAY` it has answered -/
  accepted : ℕ
  acknowledged : ℕ
  deriving DecidableEq, Repr

def Trace.empty : Trace := ⟨0, none, [], [], false, 0, 0⟩

/-- The data bytes written to the descriptor. -/
def Trace.put (x : Trace) : List Byte := (x.output.filter (·.1 = .data)).flatMap (·.2)

def Trace.written (x : Trace) : List Byte := x.output.flatMap (·.2)

structure Server where
  socket : Addr → Option ASocket
  nextAddr : Addr
  localSocketNextId : ℕ
  localSocketList : List Addr
  localSocketClosingList : List Addr
  deviceTrackerList : List Addr
  /-- the remote sockets registered with each transport -/
  disconnects : TransportId → List Addr
  /-- the sockets on `list_pending` -/
  listPending : List Addr
  online : TransportId → Bool
  connectionState : TransportId → ConnectionState
  /-- packets handed to each transport and not yet delivered at the other end -/
  outbox : TransportId → List Packet
  /-- the results the kernel has in store for the handler that is running -/
  reads : List ReadResult
  writes : List WriteResult
  /-- how many local sockets have been created -/
  created : ℕ
  /-- the local socket that was given an id last -/
  owner : ℕ → Option Addr
  trace : Addr → Trace

def Server.init : Server where
  socket _ := none
  nextAddr := 0
  localSocketNextId := 1
  localSocketList := []
  localSocketClosingList := []
  deviceTrackerList := []
  disconnects _ := []
  listPending := []
  online _ := false
  connectionState _ := .offline
  outbox _ := []
  reads := []
  writes := []
  created := 0
  owner _ := none
  trace _ := .empty

namespace Server

variable (w : Server)

def get (a : Addr) : Except Fault ASocket :=
  match w.socket a with
  | some s => .ok s
  | none => .error .useAfterFree

def store (a : Addr) (s : ASocket) : Server :=
  { w with socket := Function.update w.socket a (some s) }

def free (a : Addr) : Server := { w with socket := Function.update w.socket a none }

def setTrace (a : Addr) (x : Trace) : Server := { w with trace := Function.update w.trace a x }

def sendPacket (p : Packet) (t : TransportId) : Server :=
  { w with outbox := Function.update w.outbox t (w.outbox t ++ [p]) }

/-- `fdevent_set` on the descriptor of `s`, which is stored at `a`. The events it keeps of a pending
descriptor are those that are *not* wanted any more. -/
def fdeventSet (a : Addr) (s : ASocket) (events : Events) : Server :=
  if s.fde.state = events then w.store a s
  else if a ∈ w.listPending then
    let left := s.fde.events.without events
    { w.store a { s with fde := { s.fde with state := events, events := left } } with
      listPending := if left = .none then w.listPending.erase a else w.listPending }
  else w.store a { s with fde := { s.fde with state := events } }

def fdeventAdd (a : Addr) (events : Events) : Except Fault Server := do
  let s ← w.get a
  return w.fdeventSet a s (s.fde.state.union events)

def fdeventDel (a : Addr) (events : Events) : Except Fault Server := do
  let s ← w.get a
  return w.fdeventSet a s (s.fde.state.without events)

def acknowledge (a : Addr) : Server :=
  w.setTrace a { w.trace a with acknowledged := (w.trace a).acknowledged + 1 }

def wrote (a : Addr) (source : Source) (bytes : List Byte) : Server :=
  w.setTrace a { w.trace a with output := (w.trace a).output ++ [(source, bytes)] }

end Server

end PaxAdb.Sockets
