import PaxAdb.Ring
import PaxAdb.SystemCalls

/-!
# The life of a transport

A transport is registered by any thread, linked and started by the main loop, used by its two
threads, possibly disconnected by the user, and at last removed by the main loop. Every section of
the source that holds `transport_lock`, and every descriptor call outside of one, is one step here,
so that a run is an arbitrary interleaving of the main loop, the transport threads, the threads
that register transports, and the rest of the server opening and closing descriptors.
-/

namespace PaxAdb.Lifecycle

open Function (update)
open Ring

/-- The address of an `atransport`; addresses are not used twice. -/
abbrev TransportId := ℕ

inductive Ref where
  | pendingList
  | transportList
  | node (t : TransportId)
  deriving DecidableEq, Repr

inductive TransportType where
  | usb
  | tcp
  deriving DecidableEq, Repr

inductive Descriptor where
  | sfd
  | transportSocket
  | fd
  deriving DecidableEq, Repr

inductive Owner where
  | transport (t : TransportId) (d : Descriptor)
  | other
  deriving DecidableEq, Repr

structure ATransport where
  serial : Option (List Byte)
  adbPort : ℕ
  /-- `connection_state == CS_NOPERM` -/
  noperm : Bool
  refCount : ℤ
  kicked : Bool
  /-- `none` is the value `-1` that `remote_kick` leaves behind -/
  sfd : Option ℕ
  transportSocket : ℕ
  fd : ℕ
  deriving DecidableEq, Repr

inductive ThreadName where
  | output
  | input
  deriving DecidableEq, Repr

/-- Where a transport thread stands: in its loop, before the locked section of `kick_transport`,
before the call of `t->kick` it won there, before `transport_unref`, or past it. -/
inductive ThreadPc where
  | absent
  | running
  | kick
  | callKick
  | unref
  | finished
  deriving DecidableEq, Repr

inductive MainPc where
  | idle
  | linkTransport (t : TransportId)
  | closeFd (t : TransportId)
  | unlinkTransport (t : TransportId)
  | freeTransport (t : TransportId)
  | kick (t : TransportId)
  | callKick (t : TransportId)
  | unref (t : TransportId)
  deriving DecidableEq, Repr

structure CloseCall where
  transport : TransportId
  descriptor : Descriptor
  number : ℕ
  hit : Option Owner
  deriving DecidableEq, Repr

/-- How far a transport has come: on `pending_list`, on `transport_list`, taken off it by an
administrative disconnect, or taken off it by the removal message. -/
inductive Status where
  | unborn
  | pending
  | listed
  | unregistered
  | removed
  deriving DecidableEq, Repr

structure World where
  links : Links Ref
  transport : TransportId → Option ATransport
  type : TransportId → TransportType
  nextTransport : TransportId
  /-- linked to `pending_list`, registration message not yet written -/
  unposted : List TransportId
  /-- the registration socketpair; the flag is `action == 1` -/
  registration : List (TransportId × Bool)
  main : MainPc
  thread : TransportId → ThreadName → ThreadPc
  /-- the process's descriptor table -/
  openFiles : ℕ → Option Owner
  closes : List CloseCall
  status : TransportId → Status
  /-- `remove_transport` has been called -/
  posted : TransportId → Bool

def World.init : World where
  links := { next := id, prev := id }
  transport _ := none
  type _ := .tcp
  nextTransport := 0
  unposted := []
  registration := []
  main := .idle
  thread _ _ := .absent
  openFiles _ := none
  closes := []
  status _ := .unborn
  posted _ := false

namespace World

variable (w : World)

def setTransport (t : TransportId) (x : ATransport) : World :=
  { w with transport := update w.transport t (some x) }

def setThread (t : TransportId) (n : ThreadName) (pc : ThreadPc) : World :=
  { w with thread := update w.thread t (update (w.thread t) n pc) }

def listed (head : Ref) : List Ref :=
  w.links.walk head (w.nextTransport + 1) (w.links.next head)

def hasSerial (serial : List Byte) : Ref → Bool
  | .node t => (w.transport t).any (fun x => x.serial = some serial)
  | _ => false

def findTransport (serial : List Byte) : Option TransportId :=
  match (w.listed .transportList).find? (w.hasSerial serial) with
  | some (.node t) => some t
  | _ => none

def adbClose (t : TransportId) (d : Descriptor) (n : ℕ) : World :=
  { w with openFiles := update w.openFiles n none
           closes := w.closes ++ [⟨t, d, n, w.openFiles n⟩] }

def callKick (t : TransportId) : World :=
  match w.transport t, w.type t with
  | some x, .tcp =>
      let w := w.setTransport t { x with sfd := none }
      match x.sfd with
      | some n => w.adbClose t .sfd n
      | none => w
  | _, _ => w

def callClose (t : TransportId) : World :=
  match w.transport t, w.type t with
  | some x, .tcp => w.adbClose t .fd x.fd
  | _, _ => w

def removeTransport (t : TransportId) : World :=
  { w with registration := w.registration ++ [(t, false)]
           posted := update w.posted t true }

def kickOnce (t : TransportId) (x : ATransport) : World :=
  if x.kicked then w else (w.setTransport t { x with kicked := true }).callKick t

def transportUnrefLocked (t : TransportId) : World :=
  match w.transport t with
  | none => w
  | some x =>
      let x := { x with refCount := x.refCount - 1 }
      let w := w.setTransport t x
      if x.refCount = 0 then ((w.kickOnce t x).callClose t).removeTransport t else w

def linkPending (x : ATransport) (type : TransportType) : World :=
  let t := w.nextTransport
  { w with links := w.links.insertTail .pendingList (.node t)
           transport := update w.transport t (some x)
           type := update w.type t type
           nextTransport := t + 1
           unposted := w.unposted ++ [t]
           status := update w.status t .pending }

def serialTaken (serial : List Byte) : Bool :=
  (w.listed .pendingList).any (w.hasSerial serial) ||
    (w.listed .transportList).any (w.hasSerial serial)

/-- `register_socket_transport` while it holds `transport_lock`; `port` is 0 for a transport that is
not local. A transport that is not linked is freed. -/
def registerSocketTransport (s : ℕ) (serial : List Byte) (port : ℕ) : World :=
  if w.serialTaken serial then { w with nextTransport := w.nextTransport + 1 }
  else
    { w.linkPending { serial := some serial, adbPort := port, noperm := false, refCount := 0,
                      kicked := false, sfd := some s, transportSocket := 0, fd := 0 } .tcp with
      openFiles := update w.openFiles s (some (.transport w.nextTransport .sfd)) }

def registerUsbTransport (serial : Option (List Byte)) (writeable : Bool) : World :=
  w.linkPending { serial := serial, adbPort := 0, noperm := !writeable, refCount := 0,
                  kicked := false, sfd := none, transportSocket := 0, fd := 0 } .usb

def startTransport (t : TransportId) (x : ATransport) (s0 s1 : ℕ) : World :=
  if x.noperm then w
  else
    { w with transport := update w.transport t
               (some { x with refCount := 2, transportSocket := s0, fd := s1 })
             openFiles := update (update w.openFiles s0
               (some (.transport t .transportSocket))) s1 (some (.transport t .fd))
             thread := update w.thread t (fun _ => .running) }

def unregisterTcp (t : TransportId) (x : ATransport) : World :=
  if w.type t = .tcp ∧ x.adbPort = 0 then
    let w := { w with links := w.links.unlink (.node t)
                      status := update w.status t .unregistered }
    (w.kickOnce t x).transportUnrefLocked t
  else w

def unregisterAllLoop : ℕ → Ref → World → World
  | 0, _, w => w
  | fuel + 1, .node t, w =>
      match w.transport t with
      | none => w
      | some x => unregisterAllLoop fuel (w.links.next (.node t)) (w.unregisterTcp t x)
  | _ + 1, _, w => w

def unregisterAllTcpTransports : World :=
  unregisterAllLoop (w.nextTransport + 1) (w.links.next .transportList) w

end World

inductive Action where
  | registerSocket (s : ℕ) (serial : List Byte) (port : ℕ)
  | registerUsb (serial : Option (List Byte)) (writeable : Bool)
  | postRegistration (t : TransportId)
  | receiveRegistration (s0 s1 : ℕ)
  | linkTransport
  | receiveRemoval
  | closeFd
  | unlinkTransport
  | freeTransport
  | disconnect (serial : List Byte)
  | mainKick
  | mainCallKick
  | mainUnref
  | disconnectAll
  | threadLeave (t : TransportId) (n : ThreadName)
  | threadKick (t : TransportId) (n : ThreadName)
  | threadCallKick (t : TransportId) (n : ThreadName)
  | threadUnref (t : TransportId) (n : ThreadName)
  | openFile (n : ℕ)
  | closeFile (n : ℕ)
  deriving DecidableEq, Repr

/-- `none` where the action is not enabled. A thread that would touch a freed transport has no
step: what the source does from there on is undefined. -/
def step (w : World) : Action → Option World
  | .registerSocket s serial port =>
      if w.openFiles s = some .other then some (w.registerSocketTransport s serial port) else none
  | .registerUsb serial writeable => some (w.registerUsbTransport serial writeable)
  | .postRegistration t =>
      if t ∈ w.unposted then
        some { w with
          unposted := w.unposted.erase t, registration := w.registration ++ [(t, true)] }
      else none
  | .receiveRegistration s0 s1 =>
      match w.main, w.registration with
      | .idle, (t, true) :: rest =>
          match w.transport t with
          | some x =>
              if w.openFiles s0 = none ∧ w.openFiles s1 = none ∧ s0 ≠ s1 then
                some { w.startTransport t x s0 s1 with
                  registration := rest, main := .linkTransport t }
              else none
          | none => none
      | _, _ => none
  | .linkTransport =>
      match w.main with
      | .linkTransport t =>
          some { w with links := (w.links.unlink (.node t)).insertTail .transportList (.node t)
                        status := update w.status t .listed
                        main := .idle }
      | _ => none
  | .receiveRemoval =>
      match w.main, w.registration with
      | .idle, (t, false) :: rest =>
          match w.transport t with
          | some x =>
              some { w.adbClose t .transportSocket x.transportSocket with
                registration := rest, main := .closeFd t }
          | none => none
      | _, _ => none
  | .closeFd =>
      match w.main with
      | .closeFd t =>
          match w.transport t with
          | some x => some { w.adbClose t .fd x.fd with main := .unlinkTransport t }
          | none => none
      | _ => none
  | .unlinkTransport =>
      match w.main with
      | .unlinkTransport t =>
          some { w with links := w.links.unlink (.node t)
                        status := update w.status t .removed
                        main := .freeTransport t }
      | _ => none
  | .freeTransport =>
      match w.main with
      | .freeTransport t =>
          some { w with transport := update w.transport t none, main := .idle }
      | _ => none
  | .disconnect serial =>
      match w.main, w.findTransport serial with
      | .idle, some t =>
          some { w with links := w.links.unlink (.node t)
                        status := update w.status t .unregistered
                        main := .kick t }
      | _, _ => none
  | .mainKick =>
      match w.main with
      | .kick t =>
          match w.transport t with
          | some x =>
              if x.kicked then some { w with main := .unref t }
              else some { w.setTransport t { x with kicked := true } with main := .callKick t }
          | none => none
      | _ => none
  | .mainCallKick =>
      match w.main with
      | .callKick t => some { w.callKick t with main := .unref t }
      | _ => none
  | .mainUnref =>
      match w.main with
      | .unref t => some { w.transportUnrefLocked t with main := .idle }
      | _ => none
  | .disconnectAll =>
      match w.main with
      | .idle => some w.unregisterAllTcpTransports
      | _ => none
  | .threadLeave t n =>
      if w.thread t n = .running ∧ (w.transport t).isSome then some (w.setThread t n .kick)
      else none
  | .threadKick t n =>
      match w.thread t n, w.transport t with
      | .kick, some x =>
          if x.kicked then some (w.setThread t n .unref)
          else some ((w.setTransport t { x with kicked := true }).setThread t n .callKick)
      | _, _ => none
  | .threadCallKick t n =>
      match w.thread t n, w.transport t with
      | .callKick, some _ => some ((w.callKick t).setThread t n .unref)
      | _, _ => none
  | .threadUnref t n =>
      match w.thread t n, w.transport t with
      | .unref, some _ => some ((w.transportUnrefLocked t).setThread t n .finished)
      | _, _ => none
  | .openFile n =>
      if w.openFiles n = none then
        some { w with openFiles := update w.openFiles n (some .other) }
      else none
  | .closeFile n =>
      if w.openFiles n = some .other then
        some { w with openFiles := update w.openFiles n none }
      else none

def connectRun (s : ℕ) (serial : List Byte) (t : TransportId) : List Action :=
  [.openFile s, .registerSocket s serial 0, .postRegistration t,
    .receiveRegistration (10 + 2 * t) (11 + 2 * t), .linkTransport]

def disconnectRun (serial : List Byte) : List Action :=
  [.disconnect serial, .mainKick, .mainCallKick, .mainUnref]

def lostRun (t : TransportId) : List Action :=
  [.threadLeave t .output, .threadKick t .output, .threadCallKick t .output,
    .threadUnref t .output, .threadLeave t .input, .threadKick t .input, .threadUnref t .input]

end PaxAdb.Lifecycle
